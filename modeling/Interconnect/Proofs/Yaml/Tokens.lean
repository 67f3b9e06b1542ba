import Mathlib.Data.List.TakeWhile
import Interconnect.Proofs.Yaml.Lines

/-! # Documents are cut into tokens

    The text of a value that can be read back is cut into the tokens of that value
    (`ofText_document`): those of a scalar or an empty record, or a block with a key and a value
    for every field.

    The key idea is that the end of a record shows only at the line behind it:

    * The state in front of a line has a stack of blocks, and a line ends the innermost of them
      until it does not lie further out than the next one (`Resumes`).
    * A value is followed by a line that does not lie further in than the block around it, and
      whatever that line goes on with is handed out behind the tokens of the value
      (`Value.Runs`).
    * The fields of a record are, from the last one to the first, lines to go on with
      (`resumes_further`).
-/

namespace Interconnect.Yaml

/-! ## Tokens of values -/

namespace Value

/-- A key, and the tokens of its value and of what follows. -/
def entryTokens (name : String) (rest : List Token.Kind) : List Token.Kind :=
  .key :: .scalar (styleOf name) name :: .value :: rest

mutual

/-- The tokens of a value that can be read back. -/
def tokens : Value → List Token.Kind
  | record fields =>
    if fields.isEmpty then [.flowMappingStart, .flowMappingEnd]
    else .blockMappingStart :: (fieldTokens fields ++ [.blockEnd])
  | v => v.scalar?.toList.map fun (style, s) => .scalar style s

/-- The tokens of fields. -/
def fieldTokens : List (String × Value) → List Token.Kind
  | [] => []
  | (name, v) :: rest => entryTokens name (tokens v ++ fieldTokens rest)

end

theorem tokens_scalar {v : Value} {style : Style} {s : String} (h : v.scalar? = some (style, s)) :
    v.tokens = [.scalar style s] := by
  cases v with
  | record fields => cases h
  | _ => simp [tokens, h]

end Value

/-! ## Steps -/

namespace TokenStream

open Scan

variable {s : Scan} {level top : Int} {column : Nat} {rest more : List Char} {outer : List Int}
  {kinds : List Token.Kind}

/-- At a `:`, the ends of blocks are handed out, then the key and what goes with it. -/
theorem yields_colon {n : Nat} {kind : Token.Kind} {mark : Mark}
    (h : s.AtColon (blockEnds n mark) ⟨kind, mark⟩ more) (hkind : kind ≠ .streamEnd)
    (hmore : endsWord more = true)
    (hnext : ∀ s', s'.Behind more (nested mark.column s.indent s.outer) → Gives s' kinds) :
    Yields (n + ((blockStart s.indent mark.column).length + 3 + 2 * kinds.length + 1)) s
      (List.replicate n .blockEnd ++ (blockStart s.indent mark.column ++
        (.key :: kind :: .value :: kinds))) := by
  let s₁ : Scan := { s with
    held := [⟨kind, mark⟩], delivered := s.delivered + (blockEnds n mark).length }
  have hcolon : s₁.AtColon [] ⟨kind, mark⟩ more :=
    ⟨rfl, h.keys, h.keyAllowed, h.rest, h.fresh, h.indent, h.column⟩
  obtain ⟨s', hread, hkeys, hheld, hbehind⟩ := hcolon.readValue
  have hend : .streamEnd ∉ blockStart s.indent mark.column ++ [.key, kind, .value] := by
    unfold blockStart
    split <;> simp [hkind.symm]
  have hgiven := Yields.deliver_all (by simp [hkeys]) hheld hend fun _ => hnext _ (hbehind _)
  -- only the key waits for the `:`, and no longer than that
  have hwaiting : s₁.isWaiting = true := by simp [isWaiting, s₁, h.keys]
  have hvalue := hgiven.read_ahead rfl (dropStale_of_fresh hcolon.fresh) hwaiting
    ((hcolon.advance hmore).trans hread)
  have hends := Yields.deliver_front (blockEnds n mark) h.held h.fresh (by simp [h.keys])
    (by simp) hvalue
  simpa [s₁] using hends

/-- A line with a field ends the blocks that lie further in, and may begin one of its own. -/
theorem gives_field {name : String} (pending : List Int) (hname : Value.IsKey name)
    (h : s.AtLine column (Value.entry name more) (pending ++ top :: outer))
    (hpending : ∀ x ∈ pending, (column : Int) < x) (htop : top ≤ column)
    (hmore : endsWord more = true)
    (hnext : ∀ s', s'.Behind more (nested column top outer) → Gives s' kinds) :
    Gives s (List.replicate pending.length .blockEnd ++
      (blockStart top column ++ Value.entryTokens name kinds)) := by
  obtain ⟨s₁, mark, hread, rfl, hcolon, rfl, rfl⟩ :=
    h.advance_key hname hpending htop hmore
  refine (Yields.read h.held hread (yields_colon hcolon (by simp) hmore hnext)).mono ?_
  simp [Value.entryTokens]
  omega

/-- A scalar behind a `:` is followed by the next line. -/
theorem gives_scalar {style : Style} {text : String} (hfits : style.Fits text)
    (h : s.Behind (' ' :: (style.written text ++ lineAt column rest)) (top :: outer))
    (hline : LineStart level column rest) (hlevel : level ≤ top)
    (hnext : ∀ s', s'.AtLine column rest (top :: outer) → Gives s' kinds) :
    Gives s (.scalar style text :: kinds) := by
  obtain ⟨rfl, rfl⟩ := List.cons.inj h.stack
  obtain ⟨mark, hindent, hadvance⟩ := h.advance fun _ => blanksFrom_written hfits false
  obtain ⟨s', hread, hheld, hkeys, hbehind⟩ := readPiece_value
    (s := { s with cursor := ⟨style.written text ++ lineAt column rest, mark⟩ })
    hfits h.held h.keys h.keyAllowed hindent rfl hline hlevel
  exact gives_token h.held (hadvance.trans hread) hheld (by simp [hkeys]) (by simp)
    fun delivered => hnext _ (hbehind delivered)

/-- So is an empty record. -/
theorem gives_empty
    (h : s.Behind (' ' :: '\x7b' :: '\x7d' :: lineAt column rest) (top :: outer))
    (hline : LineStart level column rest)
    (hnext : ∀ s', s'.AtLine column rest (top :: outer) → Gives s' kinds) :
    Gives s (.flowMappingStart :: .flowMappingEnd :: kinds) := by
  obtain ⟨mark, hopen⟩ := h.advance_open
  refine gives_token h.held hopen rfl (by simp) (by simp) fun delivered => ?_
  refine gives_token rfl (advance_close rfl rfl rfl) rfl (by simp) (by simp) fun _ => ?_
  exact hnext _ (atLine_of_lineAt rfl rfl h.stack hline rfl)

/-- At the end of the text, all blocks are ended. -/
theorem gives_finish {pending : List Int} (h : s.AtLine 0 [] (pending ++ [-1]))
    (hpending : ∀ x ∈ pending, -1 < x) :
    Gives s (List.replicate pending.length .blockEnd ++ [.streamEnd]) := by
  obtain ⟨mark, hread⟩ := h.advance_finish hpending
  let s₁ : Scan := { s with
    cursor := ⟨[], mark⟩, held := blockEnds pending.length mark ++ [⟨.streamEnd, mark⟩],
    keyAllowed := false, indent := -1, outer := [] }
  have hkeys : s₁.keys = [none] := h.keys
  -- what stands behind the ends is not held back either, and nothing comes after it
  have hend : ∀ delivered, Yields 1
      { s₁ with held := [⟨.streamEnd, mark⟩], delivered } [.streamEnd] := fun _ =>
    yields_streamEnd rfl (dropStale_of_keys hkeys) (isWaiting_of_lt (by simp [hkeys])) rfl
  have hgiven : Yields _ s₁ ((blockEnds pending.length mark).map Token.kind ++ [.streamEnd]) :=
    .deliver_front _ rfl (by simp [hkeys]) (by simp [hkeys]) (by simp) (hend _)
  rw [map_kind_blockEnds] at hgiven
  refine (hgiven.read h.held hread).mono ?_
  simp only [List.length_append, List.length_replicate, length_blockEnds, List.length_singleton]
  omega

/-- The beginning of a document is followed by a line. -/
theorem gives_document (hline : LineStart level column rest)
    (hnext : ∀ s', s'.AtLine column rest [-1] → Gives s' kinds) :
    Gives { cursor := .start (['-', '-', '-'] ++ lineAt column rest) }
      (.documentStart :: kinds) := by
  let s₁ : Scan := {
    cursor := ⟨lineAt column rest, Mark.start.along 3⟩, held := [⟨.documentStart, .start⟩],
    keyAllowed := false }
  have hread : Scan.advance { cursor := .start (['-', '-', '-'] ++ lineAt column rest) } =
      .ok s₁ := rfl
  exact gives_token rfl hread rfl (by simp [s₁]) (by simp) fun _ =>
    hnext _ (atLine_of_lineAt rfl rfl rfl hline rfl)

end TokenStream

/-! ## Values -/

namespace Value

open TokenStream

/-- Whatever blocks a line ends, tokens of these kinds follow the ends. -/
def Resumes (level : Int) (column : Nat) (rest : List Char) (stack : List Int)
    (kinds : List Token.Kind) : Prop :=
  ∀ (s : Scan) (pending : List Int), s.AtLine column rest (pending ++ stack) →
    (∀ x ∈ pending, level < x) → Gives s (List.replicate pending.length .blockEnd ++ kinds)

/-- Behind a `:`, a value gives its tokens, and then those of the line that follows. -/
def Runs (v : Value) : Prop :=
  ∀ (depth : Nat) {level top : Int} {column : Nat} {rest : List Char} {outer : List Int}
    {kinds : List Token.Kind} {s : Scan}, LineStart level column rest → level ≤ top →
    top < (2 * (depth + 1) : Nat) → Resumes level column rest (top :: outer) kinds →
    s.Behind (v.behind depth ++ lineAt column rest) (top :: outer) → Gives s (v.tokens ++ kinds)

variable {level top : Int} {column depth : Nat} {rest : List Char} {outer : List Int}
  {kinds : List Token.Kind} {s : Scan} {name : String} {v : Value}
  {fields : List (String × Value)}

theorem resumes_finish : Resumes (-1) 0 [] [-1] [.streamEnd] :=
  fun _ _ hline hpending => gives_finish hline hpending

/-- A line without blocks to end. -/
theorem Resumes.gives {stack : List Int} (h : Resumes level column rest stack kinds)
    (hline : s.AtLine column rest stack) : Gives s kinds := by
  simpa using h s [] hline (by simp)

theorem lineStart_entry (name : String) (column : Nat) (rest : List Char) :
    LineStart column column (entry name rest) := by
  obtain ⟨c, cs, hwritten, hspace, hcomment⟩ := (styleOf_fits name).exists_cons
  rw [entry, hwritten]
  exact .piece column _ hspace hcomment

theorem endsWord_behind (depth : Nat) (v : Value) (rest : List Char) :
    endsWord (v.behind depth ++ rest) = true := by
  have hgap : ∃ c cs, (gap false (depth + 1) v).toList = c :: cs ∧ isSpace c = true := by
    unfold gap
    split
    · exact ⟨'\n', _, newline_toList _, by decide⟩
    · exact ⟨'\n', _, newline_toList _, by decide⟩
    · exact ⟨' ', [], rfl, by decide⟩
  obtain ⟨c, cs, hcs, hspace⟩ := hgap
  simp [behind, hcs, endsWord, hspace]

/-- The fields that follow in a record are a line to go on with, in front of the end of the
    record. -/
theorem resumes_further (hkeys : ∀ f ∈ fields, IsKey f.1) (hruns : ∀ f ∈ fields, f.2.Runs)
    (hline : LineStart level column rest) (hlevel : level ≤ top) (htop : top < (2 * depth : Nat))
    (hresumes : Resumes level column rest (top :: outer) kinds) :
    ∃ level' column' rest', further depth fields ++ lineAt column rest = lineAt column' rest' ∧
      LineStart level' column' rest' ∧ level' ≤ (2 * depth : Nat) ∧
      Resumes level' column' rest' ((2 * depth : Nat) :: top :: outer)
        (fieldTokens fields ++ .blockEnd :: kinds) := by
  induction fields with
  | nil =>
    refine ⟨level, column, rest, by simp [further_nil], hline, by omega, ?_⟩
    intro s pending hs hpending
    -- the end of the record is one more end of a block
    have hgives := hresumes s (pending ++ [((2 * depth : Nat) : Int)]) (by simpa using hs) (by
      intro x hx
      rcases List.mem_append.mp hx with hx | hx
      · exact hpending x hx
      · rw [List.mem_singleton.mp hx]
        omega)
    simpa [List.replicate_succ', fieldTokens] using hgives
  | cons f fields ih =>
    obtain ⟨name, v⟩ := f
    obtain ⟨level', column', rest', htext, hline', hlevel', hresumes'⟩ :=
      ih (fun f hf => hkeys f (List.mem_cons_of_mem _ hf))
        (fun f hf => hruns f (List.mem_cons_of_mem _ hf))
    -- the line of this field goes on with its value, and then with the lines of the others
    refine ⟨(2 * depth : Nat), 2 * depth, entry name (v.behind depth ++ lineAt column' rest'),
      ?_, lineStart_entry _ _ _, Int.le_refl _, ?_⟩
    · simp [further_cons, htext]
    · intro s pending hs hpending
      have hgives := gives_field pending (hkeys (name, v) List.mem_cons_self) hs hpending
        (Int.le_refl _) (endsWord_behind depth v _) fun s' hs' =>
          hruns (name, v) List.mem_cons_self depth hline' hlevel' (by omega) hresumes'
            (Scan.nested_self ▸ hs')
      rw [Scan.blockStart_self] at hgives
      simpa [fieldTokens, entryTokens] using hgives

/-- A record with fields, at the line of its first field. -/
theorem gives_record (depth : Nat) (hkeys : ∀ f ∈ (name, v) :: fields, IsKey f.1)
    (hruns : ∀ f ∈ (name, v) :: fields, f.2.Runs) (hline : LineStart level column rest)
    (hlevel : level ≤ top) (htop : top < (2 * depth : Nat))
    (hresumes : Resumes level column rest (top :: outer) kinds)
    (hs : s.AtLine (2 * depth)
      (entry name (v.behind depth ++ (further depth fields ++ lineAt column rest)))
      (top :: outer)) :
    Gives s ((record ((name, v) :: fields)).tokens ++ kinds) := by
  obtain ⟨level', column', rest', htext, hline', hlevel', hresumes'⟩ :=
    resumes_further (fun f hf => hkeys f (List.mem_cons_of_mem _ hf))
      (fun f hf => hruns f (List.mem_cons_of_mem _ hf)) hline hlevel htop hresumes
  rw [htext] at hs
  have hgives := gives_field [] (hkeys (name, v) List.mem_cons_self) hs (by simp)
    (Int.le_of_lt htop) (endsWord_behind depth v _) fun s' hs' =>
      hruns (name, v) List.mem_cons_self depth hline' hlevel' (by omega) hresumes'
        (Scan.nested_of_lt htop ▸ hs')
  rw [Scan.blockStart_of_lt htop] at hgives
  simpa [tokens, fieldTokens, entryTokens] using hgives

/-- A value that can be read back gives its tokens. -/
theorem Readable.runs (hv : v.Readable) : v.Runs := by
  induction hv with
  | scalar h =>
    intro depth level top column rest outer kinds s hline hlevel htop hresumes hs
    rw [behind_scalar h] at hs
    rw [tokens_scalar h]
    exact gives_scalar (scalar_fits h) hs hline hlevel fun s' hs' => hresumes.gives hs'
  | @record fields keys values ih =>
    intro depth level top column rest outer kinds s hline hlevel htop hresumes hs
    cases fields with
    | nil =>
      rw [behind_empty] at hs
      simpa [tokens] using gives_empty hs hline fun s' hs' => hresumes.gives hs'
    | cons f fields =>
      obtain ⟨name, v⟩ := f
      rw [behind_record, lineAt_append, entry_append, List.append_assoc] at hs
      exact gives_record (depth + 1) keys ih hline hlevel htop hresumes
        (Scan.atLine_of_lineAt hs.held hs.keys hs.stack (lineStart_entry _ _ _) hs.rest)

/-! ## Documents -/

theorem length_fieldTokens_le
    (h : ∀ f ∈ fields, f.2.tokens.length ≤ 3 * (f.2.behind depth).length) :
    (fieldTokens fields).length ≤ 3 * (further depth fields).length := by
  induction fields with
  | nil => simp [fieldTokens]
  | cons f fields ih =>
    obtain ⟨name, v⟩ := f
    have hv : v.tokens.length ≤ 3 * (v.behind depth).length := h (name, v) List.mem_cons_self
    have hfields := ih fun f hf => h f (List.mem_cons_of_mem _ hf)
    simp only [fieldTokens, entryTokens, further_cons, lineAt, entry, List.length_cons,
      List.length_append]
    omega

/-- A text has at least a third as many characters as it has tokens. -/
theorem Readable.length_tokens_le (hv : v.Readable) (depth : Nat) :
    v.tokens.length ≤ 3 * (v.behind depth).length := by
  induction hv generalizing depth with
  | scalar h =>
    rw [tokens_scalar h, behind_scalar h]
    simp
    omega
  | @record fields _ _ ih =>
    cases fields with
    | nil => simp [tokens, behind_empty]
    | cons f fields =>
      obtain ⟨name, v⟩ := f
      have hv : v.tokens.length ≤ 3 * (v.behind (depth + 1)).length :=
        ih (name, v) List.mem_cons_self (depth + 1)
      have hfields : (fieldTokens fields).length ≤ 3 * (further (depth + 1) fields).length :=
        length_fieldTokens_le fun f hf => ih f (List.mem_cons_of_mem _ hf) (depth + 1)
      simp only [tokens, behind_record, fieldTokens, entryTokens, lineAt, entry,
        List.isEmpty_cons, Bool.false_eq_true, if_false, List.length_cons, List.length_append,
        List.length_nil]
      omega

/-- The document of a record is cut into its tokens. -/
theorem Readable.ofText_document (h : (Value.record fields).Readable) :
    (TokenStream.ofText (document (.record fields))).error = none ∧
      (TokenStream.ofText (document (.record fields))).tokens.map Token.kind =
        .documentStart :: ((Value.record fields).tokens ++ [.streamEnd]) := by
  have hchars : (document (.record fields)).toList.takeWhile (· ≠ '\x00') =
      (document (.record fields)).toList := by
    rw [List.takeWhile_eq_self_iff]
    rintro c hc
    have hne : c ≠ '\x00' := fun hnul => h.nul_not_mem_document (hnul ▸ hc)
    simpa using hne
  rw [TokenStream.ofText, hchars]
  obtain ⟨⟨⟩⟩ | ⟨keys, values⟩ := h
  cases fields with
  | nil =>
    -- not behind a `:`, but a single text
    rw [document_empty]
    decide
  | cons f fields =>
    obtain ⟨name, v⟩ := f
    have hv : v.tokens.length ≤ 3 * (v.behind 0).length :=
      (values (name, v) List.mem_cons_self).length_tokens_le 0
    have hfields := length_fieldTokens_le fun f hf =>
      (values f (List.mem_cons_of_mem _ hf)).length_tokens_le 0
    have hgives := gives_document (lineStart_entry name 0
        (v.behind 0 ++ (further 0 fields ++ lineAt 0 []))) fun s hs =>
      gives_record 0 keys (fun f hf => (values f hf).runs) .finish (Int.le_refl _)
        (by decide) resumes_finish hs
    rw [document_record]
    refine hgives _ ?_
    simp [tokens, fieldTokens, entryTokens, lineAt, entry]
    omega

end Value

end Interconnect.Yaml
