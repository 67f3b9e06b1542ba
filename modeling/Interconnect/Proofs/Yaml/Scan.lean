import Interconnect.Yaml.Token.Stream
import Interconnect.Proofs.Yaml.Scalar

/-! # Cutting a text, piece by piece

    `run` needs fuel, and holds tokens back while a key may still begin in front of them. What
    it hands out is therefore said for all fuel from some amount on (`Yields`), with one rule
    for each thing that it can do: read a piece, or hand out a token.

    Blocks are ended by the beginning of a line. The blocks that lie further in than the line
    are the first ones of the stack of indentations, and each of them gives one token
    (`unrollFrom_append`).
-/

namespace Interconnect.Yaml

namespace Scan

/-! ## Indentation -/

/-- The tokens that end so many blocks. -/
def blockEnds (n : Nat) (mark : Mark) : List Token :=
  List.replicate n ⟨.blockEnd, mark⟩

@[simp] theorem map_kind_blockEnds (n : Nat) (mark : Mark) :
    (blockEnds n mark).map Token.kind = List.replicate n .blockEnd := by
  simp [blockEnds]

@[simp] theorem length_blockEnds (n : Nat) (mark : Mark) : (blockEnds n mark).length = n := by
  simp [blockEnds]

variable {column top : Int}

/-- The blocks that lie further in than a column are ended, and no others. -/
theorem unrollFrom_append (mark : Mark) {pending outer around : List Int} {indent : Int}
    {held : List Token} (hstack : indent :: around = pending ++ top :: outer)
    (hpending : ∀ x ∈ pending, column < x) (htop : top ≤ column) :
    unrollFrom column mark around indent held =
      (top, outer, held ++ blockEnds pending.length mark) := by
  induction pending generalizing indent around held with
  | nil =>
    obtain ⟨rfl, rfl⟩ := List.cons.inj hstack
    cases around with
    | nil => simp [unrollFrom, blockEnds]
    | cons _ _ => simp [unrollFrom, blockEnds, Int.not_lt_of_ge htop]
  | cons x pending ih =>
    obtain ⟨rfl, haround⟩ := List.cons.inj hstack
    have hx : column < indent := hpending indent List.mem_cons_self
    have hrest : ∀ x ∈ pending, column < x := fun x hx => hpending x (List.mem_cons_of_mem _ hx)
    -- the block around is the next one to be ended, or the one that is reached
    obtain ⟨y, further, hnext⟩ : ∃ y further, pending ++ top :: outer = y :: further :=
      List.exists_cons_of_ne_nil (by simp)
    rw [haround, List.append_eq, hnext, unrollFrom, if_pos hx, ih hnext.symm hrest]
    simp [blockEnds, List.replicate_succ]

/-- Blocks can be ended in two steps. -/
theorem unrollFrom_unrollFrom (mark : Mark) {below : Int} (hbelow : below ≤ column)
    (around : List Int) (indent : Int) (held : List Token) :
    unrollFrom below mark (unrollFrom column mark around indent held).2.1
        (unrollFrom column mark around indent held).1
        (unrollFrom column mark around indent held).2.2 =
      unrollFrom below mark around indent held := by
  induction around generalizing indent held with
  | nil => rfl
  | cons x around ih =>
    -- what the first step ends, the second one would have ended too
    by_cases hx : column < indent
    · have hbelow' : below < indent := Int.lt_of_le_of_lt hbelow hx
      rw [unrollFrom.eq_def column, unrollFrom.eq_def below mark (x :: around)]
      simp only [if_pos hx, if_pos hbelow']
      exact ih x _
    · rw [unrollFrom.eq_def column]
      simp only [if_neg hx]

end Scan

namespace TokenStream

/-! ## Handing out -/

/-- From an amount of fuel on, tokens of these kinds are handed out, and no error. -/
def Yields (n : Nat) (s : Scan) (kinds : List Token.Kind) : Prop :=
  ∀ fuel, n ≤ fuel → (run fuel s).error = none ∧ (run fuel s).tokens.map Token.kind = kinds

variable {n m : Nat} {s s' : Scan} {t : Token} {held : List Token} {kinds : List Token.Kind}

theorem Yields.mono (h : Yields n s kinds) (hle : n ≤ m) : Yields m s kinds :=
  fun fuel hfuel => h fuel (Nat.le_trans hle hfuel)

/-- Without tokens, the next piece is read. -/
theorem Yields.read (hheld : s.held = []) (hread : s.advance = .ok s') (h : Yields n s' kinds) :
    Yields (n + 1) s kinds := by
  intro fuel hfuel
  obtain ⟨fuel, rfl⟩ : ∃ k, fuel = k + 1 := ⟨fuel - 1, by omega⟩
  simp only [run, hheld, hread]
  exact h fuel (by omega)

/-- It is also read while a key may begin in front of the tokens. -/
theorem Yields.read_ahead (hheld : s.held = t :: held) (hfresh : s.dropStale = .ok s)
    (hwaiting : s.isWaiting = true) (hread : s.advance = .ok s') (h : Yields n s' kinds) :
    Yields (n + 1) s kinds := by
  intro fuel hfuel
  obtain ⟨fuel, rfl⟩ : ∃ k, fuel = k + 1 := ⟨fuel - 1, by omega⟩
  simp only [run, hheld, hfresh, hwaiting, if_true, hread]
  exact h fuel (by omega)

/-- Else a token is handed out. -/
theorem Yields.deliver (hheld : s.held = t :: held) (hfresh : s.dropStale = .ok s)
    (hwaiting : s.isWaiting = false) (hend : t.kind ≠ .streamEnd)
    (h : Yields n { s with held, delivered := s.delivered + 1 } kinds) :
    Yields (n + 1) s (t.kind :: kinds) := by
  intro fuel hfuel
  obtain ⟨fuel, rfl⟩ : ∃ k, fuel = k + 1 := ⟨fuel - 1, by omega⟩
  obtain ⟨herror, htokens⟩ := h fuel (by omega)
  simp only [run, hheld, hfresh, hwaiting, if_neg hend, Bool.false_eq_true, if_false, cons,
    List.map_cons, herror, htokens, and_self]

/-- After the end of the text there is nothing. -/
theorem yields_streamEnd (hheld : s.held = t :: held) (hfresh : s.dropStale = .ok s)
    (hwaiting : s.isWaiting = false) (hend : t.kind = .streamEnd) :
    Yields 1 s [.streamEnd] := by
  intro fuel hfuel
  obtain ⟨fuel, rfl⟩ : ∃ k, fuel = k + 1 := ⟨fuel - 1, by omega⟩
  simp [run, hheld, hfresh, hwaiting, hend]

/-- Twice as much fuel as there are tokens is enough: no piece is read without a token. -/
def Gives (s : Scan) (kinds : List Token.Kind) : Prop :=
  Yields (2 * kinds.length) s kinds

/-! ## Candidates -/

theorem dropStale_of_fresh
    (hfresh : ∀ k, some k ∈ s.keys → Scan.Candidate.isStale k s.cursor.mark = false) :
    s.dropStale = .ok s := by
  have hnone : (s.keys.any fun k => k.any fun k =>
      Scan.Candidate.isStale k s.cursor.mark && k.required) = false := by
    rw [List.any_eq_false]
    rintro (_ | k) hk
    · simp
    · simp [hfresh k hk]
  have hkept : (s.keys.map fun k => k.filter fun k =>
      !Scan.Candidate.isStale k s.cursor.mark) = s.keys := by
    rw [List.map_congr_left, List.map_id]
    rintro (_ | k) hk
    · rfl
    · simp [hfresh k hk]
  simp only [Scan.dropStale, hnone, hkept, Bool.false_eq_true, if_false]

theorem dropStale_of_keys (hkeys : s.keys = [none]) : s.dropStale = .ok s :=
  dropStale_of_fresh (by simp [hkeys])

theorem isWaiting_of_lt (hkeys : ∀ k, some k ∈ s.keys → s.delivered < k.number) :
    s.isWaiting = false := by
  rw [Scan.isWaiting, List.any_eq_false]
  rintro (_ | k) hk
  · simp
  · have hne := Nat.ne_of_gt (hkeys k hk)
    simp [hne]

/-- Tokens that lie in front of all candidates are handed out. -/
theorem Yields.deliver_front (ts : List Token) (hheld : s.held = ts ++ held)
    (hfresh : ∀ k, some k ∈ s.keys → Scan.Candidate.isStale k s.cursor.mark = false)
    (hkeys : ∀ k, some k ∈ s.keys → s.delivered + ts.length ≤ k.number)
    (hend : .streamEnd ∉ ts.map Token.kind)
    (h : Yields n { s with held, delivered := s.delivered + ts.length } kinds) :
    Yields (ts.length + n) s (ts.map Token.kind ++ kinds) := by
  induction ts generalizing s with
  | nil =>
    obtain ⟨⟩ := s
    cases hheld
    simpa using h
  | cons t ts ih =>
    rw [List.length_cons, Nat.add_comm ts.length, ← Nat.add_assoc] at hkeys h
    obtain ⟨hkind, hrest⟩ := not_or.mp (fun hmem => hend (List.mem_cons.mpr hmem))
    -- candidates are numbered from the beginning, so that they are as far back as before
    have hnext := ih (s := { s with held := ts ++ held, delivered := s.delivered + 1 }) rfl
      hfresh hkeys hrest h
    have hwaiting := isWaiting_of_lt fun k hk => Nat.lt_of_lt_of_le (by omega) (hkeys k hk)
    refine (Yields.deliver hheld (dropStale_of_fresh hfresh) hwaiting (Ne.symm hkind) hnext).mono ?_
    rw [List.length_cons]
    omega

/-- No token is held back if nothing may be a key. -/
theorem Yields.deliver_all {given : List Token.Kind} (hkeys : ∀ k ∈ s.keys, k = none)
    (hheld : s.held.map Token.kind = given) (hend : .streamEnd ∉ given)
    (h : ∀ delivered, Yields n { s with held := [], delivered } kinds) :
    Yields (given.length + n) s (given ++ kinds) := by
  subst hheld
  rw [List.length_map]
  have hnone : ∀ k, some k ∉ s.keys := fun k hk => nomatch hkeys _ hk
  exact .deliver_front s.held (List.append_nil _).symm (fun k hk => absurd hk (hnone k))
    (fun k hk => absurd hk (hnone k)) hend (h _)

/-- A piece that cannot be a key gives its token. -/
theorem gives_token (hheld : s.held = []) (hread : s.advance = .ok s') (htoken : s'.held = [t])
    (hkeys : ∀ k ∈ s'.keys, k = none) (hend : t.kind ≠ .streamEnd)
    (h : ∀ delivered, Gives { s' with held := [], delivered } kinds) :
    Gives s (t.kind :: kinds) := by
  have hkinds : s'.held.map Token.kind = [t.kind] := by rw [htoken, List.map_singleton]
  have hgiven : Yields ([t.kind].length + 2 * kinds.length) s' ([t.kind] ++ kinds) :=
    .deliver_all hkeys hkinds (by simpa using hend.symm) h
  refine (hgiven.read hheld hread).mono ?_
  simp only [List.length_cons, List.length_nil]
  omega

end TokenStream

end Interconnect.Yaml
