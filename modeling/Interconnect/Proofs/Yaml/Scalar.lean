import Interconnect.Yaml.Scalar.Plain
import Interconnect.Proofs.Yaml.Written

/-! # Scalars are read back

    A scalar that was written is read as its text, whatever characters it has.

    * Without quotes, it is over at the `:` of a key (`plain_key`), or at the end of its line
      if the next line does not lie further in (`plain_line`). Spaces inside it are kept.
    * In quotes, every character is read as itself or by its escape (`double_written`).

    Both readings collect characters backwards and hold spaces back until a word follows; the
    inductions are therefore about any text read so far and any number of such spaces.
-/

namespace Interconnect.Yaml

/-! ## Marks -/

namespace Mark

/-- So many characters further along the same line. -/
def along (m : Mark) (n : Nat) : Mark :=
  ⟨m.index + n, m.line, m.column + n⟩

/-- On the next line, at a column. -/
def below (m : Mark) (column : Nat) : Mark :=
  ⟨m.index + 1 + column, m.line + 1, column⟩

variable {m : Mark}

theorem after_of_ne {c : Char} (h : c ≠ '\n') : m.after c = m.along 1 :=
  if_neg h

@[simp] theorem along_along (a b : Nat) : (m.along a).along b = m.along (a + b) := by
  simp [along, Nat.add_assoc]

@[simp] theorem along_column (n : Nat) : (m.along n).column = m.column + n := rfl

theorem after_feed_along (column : Nat) : (m.after '\n').along column = m.below column := by
  simp [after, along, below]

end Mark

/-- What a line begins with, at a column, and how far in that is: a piece at its column, or the
    end of the text, which lies further out than any block. -/
inductive LineStart : Int → Nat → List Char → Prop
  | piece {c : Char} (column : Nat) (rest : List Char) (hspace : isSpace c = false)
      (hcomment : c ≠ '#') : LineStart column column (c :: rest)
  | finish : LineStart (-1) 0 []

/-! ## Characters -/

section character

variable {c : Char}

/-- What is no indicator is none of the characters that end or separate scalars. -/
theorem ne_of_not_indicator (h : Value.isIndicator c = false) {x : Char}
    (hx : Value.isIndicator x = true) : c ≠ x := by
  rintro rfl
  rw [h] at hx
  cases hx

theorem isSpace_of_not_indicator (h : Value.isIndicator c = false) (hblank : c ≠ ' ') :
    isSpace c = false := by
  have hne : ∀ x, Value.isIndicator x = true → c ≠ x := fun x hx => ne_of_not_indicator h hx
  simp [isSpace, isBlank, isBreak, hblank, hne '\t' (by decide), hne '\n' (by decide),
    hne '\r' (by decide)]

/-- A scalar begins with a character that is neither passed over nor begins a comment. -/
theorem Style.Fits.exists_cons {style : Style} {s : String} (hfits : style.Fits s) :
    ∃ c cs, style.written s = c :: cs ∧ isSpace c = false ∧ c ≠ '#' := by
  cases style with
  | quoted => exact ⟨'\x22', _, rfl, by decide, by decide⟩
  | block => exact hfits.elim
  | plain =>
    obtain ⟨c, cs, hcs⟩ := List.exists_cons_of_ne_nil hfits.ne_nil
    have hblank : c ≠ ' ' := (hfits.head c (by rw [hcs]; rfl)).1
    have hindicator : Value.isIndicator c = false :=
      hfits.chars c (by rw [hcs]; exact List.mem_cons_self)
    exact ⟨c, cs, hcs, isSpace_of_not_indicator hindicator hblank,
      ne_of_not_indicator hindicator (by decide)⟩

end character

namespace Scalar

/-! ## Spaces -/

theorem getLast?_ne_of_append {as bs : List Char} {c : Char}
    (h : (as ++ bs).getLast? ≠ some c) : bs.getLast? ≠ some c := by
  intro hbs
  exact h (by rw [List.getLast?_append, hbs, Option.some_or])

theorem breaks_spaces (n : Nat) : breaks (List.replicate n ' ') = 0 := by
  induction n with
  | zero => rfl
  | succ n ih => rw [List.replicate_succ, breaks, ih] <;> simp [isBreak]

theorem fold_spaces (n : Nat) : fold (List.replicate n ' ') = List.replicate n ' ' := by
  rw [fold, breaks_spaces]

/-! ## Plain scalars -/

section plain

variable {ctx : PlainContext} {start mark : Mark} {text gap cs rest : List Char} {c : Char}

/-- A space goes to those that are held back. -/
theorem plainFrom_space :
    plainFrom ctx start text gap mark (' ' :: rest) =
      plainFrom ctx start text (' ' :: gap) (mark.along 1) rest := by
  rw [plainFrom, if_pos (by decide), if_neg (fun h => absurd h.1 (by decide)),
    Mark.after_of_ne (by decide)]

theorem plainFrom_spaces (n : Nat) :
    plainFrom ctx start text gap mark (List.replicate n ' ' ++ rest) =
      plainFrom ctx start text (List.replicate n ' ' ++ gap) (mark.along n) rest := by
  induction n generalizing gap mark with
  | zero => rfl
  | succ n ih =>
    rw [List.replicate_succ, List.cons_append, plainFrom_space, ih, Mark.along_along,
      Nat.add_comm 1 n, List.append_cons, ← List.replicate_succ', List.replicate_succ]

theorem endsPlain_of_ne (hc : c ≠ ':') : endsPlain false (c :: rest) = false := by
  simp [endsPlain]

/-- Another word brings the spaces in front of it along. -/
theorem plainFrom_word (hflow : ctx.inFlow = false) (n : Nat)
    (hc : Value.isIndicator c = false) (hblank : c ≠ ' ') (hcolumn : 0 < mark.column)
    (hindent : ctx.indent ≤ mark.column) :
    plainFrom ctx start text (List.replicate n ' ') mark (c :: rest) =
      plainFrom ctx start (c :: (List.replicate n ' ' ++ text)) [] (mark.after c) rest := by
  have hspace := isSpace_of_not_indicator hc hblank
  have hcolon : c ≠ ':' := ne_of_not_indicator hc (by decide)
  have hcomment : c ≠ '#' := ne_of_not_indicator hc (by decide)
  have hword : endsBeforeWord ctx (List.replicate n ' ') mark (c :: rest) = false := by
    simp [endsBeforeWord, Nat.ne_of_gt hcolumn, hcomment, Int.not_lt_of_ge hindent]
  have hfolded : (fold (List.replicate n ' ').reverse).reverse = List.replicate n ' ' := by
    rw [List.reverse_replicate, fold_spaces, List.reverse_replicate]
  rw [plainFrom, if_neg (by simp [hspace]), if_neg (by simp [hword, hflow, endsPlain_of_ne hcolon]),
    hfolded]

/-- Inside a line, a scalar goes on as long as there are no indicators. -/
theorem plainFrom_line (hflow : ctx.inFlow = false) (n : Nat)
    (hchars : ∀ c ∈ cs, Value.isIndicator c = false)
    (hlast : (List.replicate n ' ' ++ cs).getLast? ≠ some ' ') (hcolumn : 0 < mark.column)
    (hindent : ctx.indent ≤ mark.column) :
    plainFrom ctx start text (List.replicate n ' ') mark (cs ++ rest) =
      plainFrom ctx start (cs.reverse ++ (List.replicate n ' ' ++ text)) []
        (mark.along cs.length) rest := by
  induction cs generalizing text n mark with
  | nil =>
    cases n with
    | zero => rfl
    | succ n => simp [List.replicate_succ'] at hlast
  | cons c cs ih =>
    have hc : Value.isIndicator c = false := hchars c List.mem_cons_self
    have hcs : ∀ c ∈ cs, Value.isIndicator c = false :=
      fun x hx => hchars x (List.mem_cons_of_mem c hx)
    have hnext : ctx.indent ≤ (mark.along 1).column := by
      rw [Mark.along_column]
      omega
    have hlength : 1 + cs.length = (c :: cs).length := Nat.add_comm 1 _
    -- a space is held back with the others, and a word brings them along
    by_cases hspace : c = ' '
    · subst hspace
      rw [List.append_cons, ← List.replicate_succ'] at hlast
      rw [List.cons_append, plainFrom_space, ← List.replicate_succ,
        ih (n + 1) hcs hlast (Nat.succ_pos _) hnext, Mark.along_along, hlength]
      simp [List.replicate_succ]
    · have hlast' : cs.getLast? ≠ some ' ' := by
        rw [List.append_cons] at hlast
        exact getLast?_ne_of_append hlast
      rw [List.cons_append, plainFrom_word hflow n hc hspace hcolumn hindent,
        Mark.after_of_ne (ne_of_not_indicator hc (by decide)), ← List.replicate_zero,
        ih 0 hcs hlast' (Nat.succ_pos _) hnext, Mark.along_along, hlength]
      simp

/-- All characters of a plain text belong to the scalar that begins with them. -/
theorem plain_text {indent : Int} (hplain : IsPlain cs) (hindent : indent ≤ mark.column) :
    plain ⟨false, indent + 1⟩ ⟨cs ++ rest, mark⟩ =
      plainFrom ⟨false, indent + 1⟩ mark cs.reverse [] (mark.along cs.length) rest := by
  obtain ⟨c, cs, rfl⟩ := List.exists_cons_of_ne_nil hplain.ne_nil
  obtain ⟨hblank, hleading⟩ := hplain.head c rfl
  have hc : Value.isIndicator c = false := hplain.chars c List.mem_cons_self
  have hspace := isSpace_of_not_indicator hc hblank
  have hcolon : c ≠ ':' := ne_of_not_indicator hc (by decide)
  have hcomment : c ≠ '#' := ne_of_not_indicator hc (by decide)
  -- `---` and `...` begin with indicators
  have hindicator : startsWithIndicator (c :: (cs ++ rest)) = false := by
    have hdash : c ≠ '-' := by
      rintro rfl
      exact absurd hleading (by decide)
    have hpoint : c ≠ '.' := by
      rintro rfl
      exact absurd hleading (by decide)
    simp [startsWithIndicator, hdash, hpoint]
  have hlast : cs.getLast? ≠ some ' ' :=
    getLast?_ne_of_append (show ([c] ++ cs).getLast? ≠ some ' ' from hplain.last)
  have hchars : ∀ x ∈ cs, Value.isIndicator x = false :=
    fun x hx => hplain.chars x (List.mem_cons_of_mem c hx)
  have hnext : indent + 1 ≤ (mark.along 1).column := by
    rw [Mark.along_column]
    omega
  have hgap : endsBeforeWord ⟨false, indent + 1⟩ [] mark (c :: (cs ++ rest)) = false := by
    simp [endsBeforeWord, hindicator, hcomment]
  rw [plain, List.cons_append, plainFrom, if_neg (by simp [hspace]),
    if_neg (by simp [hgap, endsPlain_of_ne hcolon]),
    Mark.after_of_ne (ne_of_not_indicator hc (by decide))]
  refine (plainFrom_line rfl 0 hchars hlast (Nat.succ_pos _) hnext).trans ?_
  simp [fold, breaks, Nat.add_comm 1]

/-- A key is over at its `:`. -/
theorem plain_key {s : String} {indent : Int} (hplain : Style.plain.Fits s)
    (hindent : indent ≤ mark.column) (hend : endsWord rest = true) :
    plain ⟨false, indent + 1⟩ ⟨Style.plain.written s ++ ':' :: rest, mark⟩ =
      .ok ⟨s, ⟨':' :: rest, mark.along (Style.plain.written s).length⟩, false⟩ := by
  have hcolon : endsPlain false (':' :: rest) = true := by simp [endsPlain, hend]
  rw [Style.written_plain, plain_text hplain hindent, plainFrom, if_neg (by decide),
    if_pos (by simp [hcolon])]
  simp

/-- A value is over at the end of its line, if the next line does not lie further in. -/
theorem plain_line {s : String} {indent level : Int} {column : Nat} (hplain : Style.plain.Fits s)
    (hindent : indent ≤ mark.column) (hline : LineStart level column rest)
    (hlevel : level ≤ indent) :
    plain ⟨false, indent + 1⟩ ⟨Style.plain.written s ++ lineAt column rest, mark⟩ =
      .ok ⟨s, ⟨rest, (mark.along (Style.plain.written s).length).below column⟩, true⟩ := by
  rw [Style.written_plain, plain_text hplain hindent, lineAt, plainFrom, if_pos (by decide),
    if_neg (fun h => absurd h.1 (by decide)), plainFrom_spaces, Mark.after_feed_along]
  have hbroken : (List.replicate column ' ' ++ ['\n']).any isBreak = true := by
    simp [isBreak]
  -- the break and the spaces behind it are held back, and no word follows to bring them along
  cases hline with
  | finish => simp [plainFrom, isBreak]
  | @piece c column rest hspace hcomment =>
    have hends : endsBeforeWord ⟨false, indent + 1⟩ (List.replicate column ' ' ++ ['\n'])
        ((mark.along s.toList.length).below column) (c :: rest) = true := by
      have hlt : ((mark.along s.toList.length).below column).column < indent + 1 := by
        show (column : Int) < indent + 1
        omega
      simp [endsBeforeWord, hlt]
    rw [plainFrom, if_neg (by simp [hspace]), if_pos (by simp [hends]), hbroken]
    simp

end plain

/-! ## Scalars in quotes -/

section quoted

variable {start mark : Mark} {text cs rest : List Char} {gap : Gap} {c : Char}

/-- Characters of an escape that was read are passed over. -/
theorem doubleFrom_passed (hfeed : '\n' ∉ cs) :
    doubleFrom start text gap cs.length mark (cs ++ rest) =
      doubleFrom start text gap 0 (mark.along cs.length) rest := by
  induction cs generalizing mark with
  | nil => rfl
  | cons c cs ih =>
    obtain ⟨hc, hcs⟩ := not_or.mp (fun h => hfeed (List.mem_cons.mpr h))
    rw [List.length_cons, List.cons_append, doubleFrom, ih hcs, Mark.after_of_ne (Ne.symm hc),
      Mark.along_along, Nat.add_comm 1]

@[simp] theorem folded_spaces (n : Nat) :
    Gap.folded ⟨List.replicate n ' ', false⟩ = List.replicate n ' ' := by
  simp [Gap.folded, fold_spaces]

theorem hexValue?_hexDigit {n : Nat} (h : n < 16) : hexValue? (Value.hexDigit n) = some n := by
  have hall : ∀ n < 16, hexValue? (Value.hexDigit n) = some n := by decide
  exact hall n h

/-- An escape of a code point stands for its character. -/
theorem escape?_code (hlt : c.toNat < 128) :
    escape? start ('u' :: '0' :: '0' :: Value.hexDigit (c.toNat / 16) ::
      Value.hexDigit (c.toNat % 16) :: rest) = .ok (c, 5) := by
  have hhigh := hexValue?_hexDigit (show c.toNat / 16 < 16 by omega)
  have hlow := hexValue?_hexDigit (Nat.mod_lt c.toNat (show 0 < 16 by decide))
  have hzero : hexValue? '0' = some 0 := by decide
  have hcode : c.toNat / 16 * 16 + c.toNat % 16 = c.toNat := by omega
  have hchar : character? c.toNat = some c := by
    have hvalid : c.toNat.isValidChar := c.valid
    rw [character?, dif_pos hvalid]
    rfl
  simp [escape?, escaped?, escapeDigits?, hexNumber?, hzero, hhigh, hlow, hcode, hchar]

/-- A character that is neither a space nor an indicator brings the spaces in front of it along. -/
theorem doubleFrom_char (n : Nat) (hcolumn : 0 < mark.column) (hspace : isSpace c = false)
    (hquote : c ≠ '\x22') (hslash : c ≠ '\x5c') :
    doubleFrom start text ⟨List.replicate n ' ', false⟩ 0 mark (c :: rest) =
      doubleFrom start (c :: (List.replicate n ' ' ++ text)) {} 0 (mark.after c) rest := by
  simp [doubleFrom, hspace, hquote, hslash, Nat.ne_of_gt hcolumn]

/-- So does an escape, whose further characters are passed over. -/
theorem doubleFrom_escaped {x y : Char} {n k : Nat} (hcolumn : 0 < mark.column)
    (hbreak : isBreak x = false) (hread : escape? start (x :: rest) = .ok (y, k)) :
    doubleFrom start text ⟨List.replicate n ' ', false⟩ 0 mark ('\x5c' :: x :: rest) =
      doubleFrom start (y :: (List.replicate n ' ' ++ text)) {} k (mark.along 1) (x :: rest) := by
  have hreturn : x ≠ '\r' := by
    rintro rfl
    exact absurd hbreak (by decide)
  have hslash : isSpace '\x5c' = false := by decide
  have hafter : mark.after '\x5c' = mark.along 1 := Mark.after_of_ne (by decide)
  rw [doubleFrom.eq_def]
  simp [hslash, Nat.ne_of_gt hcolumn, hreturn, hbreak, hread, hafter]

/-- What is written for a character is read as the character. -/
theorem doubleFrom_escape (n : Nat) (hcolumn : 0 < mark.column) (hspace : c ≠ ' ') :
    doubleFrom start text ⟨List.replicate n ' ', false⟩ 0 mark (Value.escape c ++ rest) =
      doubleFrom start (c :: (List.replicate n ' ' ++ text)) {} 0
        (mark.along (Value.escape c).length) rest := by
  rcases Value.escape_cases c with
    ⟨hescape, hquote, hslash, hblank, -⟩ | ⟨x, hescape, hx, hbreak⟩ | ⟨hescape, hlt⟩
  · -- the character itself
    have hword : isSpace c = false := by
      rw [← Bool.not_eq_true]
      exact fun h => hspace (hblank h)
    have hfeed : c ≠ '\n' := by
      rintro rfl
      exact absurd hword (by decide)
    rw [hescape, List.singleton_append, doubleFrom_char n hcolumn hword hquote hslash,
      Mark.after_of_ne hfeed]
    rfl
  · -- a letter
    have hfeed : '\n' ∉ [x] := by
      intro hmem
      obtain rfl := List.mem_singleton.mp hmem
      exact absurd hbreak (by decide)
    have hread : escape? start (x :: rest) = .ok (c, [x].length) := by simp [escape?, hx]
    rw [hescape, List.cons_append, List.singleton_append,
      doubleFrom_escaped hcolumn hbreak hread]
    exact (doubleFrom_passed hfeed).trans (by rw [Mark.along_along]; rfl)
  · -- a code point
    have hdigit : ∀ n < 16, '\n' ≠ Value.hexDigit n := by decide
    have hfeed : '\n' ∉ ['u', '0', '0', Value.hexDigit (c.toNat / 16),
        Value.hexDigit (c.toNat % 16)] := by
      simp [hdigit _ (show c.toNat / 16 < 16 by omega),
        hdigit _ (Nat.mod_lt c.toNat (show 0 < 16 by decide))]
    have hread : escape? start ('u' :: (['0', '0', Value.hexDigit (c.toNat / 16),
        Value.hexDigit (c.toNat % 16)] ++ rest)) = .ok (c, 5) := escape?_code hlt
    rw [hescape, List.cons_append, List.cons_append,
      doubleFrom_escaped hcolumn (by decide) hread]
    exact (doubleFrom_passed hfeed).trans (by rw [Mark.along_along]; rfl)

/-- Escaped characters are read as they were, up to the closing quote. -/
theorem doubleFrom_text (n : Nat) (hcolumn : 0 < mark.column) :
    doubleFrom start text ⟨List.replicate n ' ', false⟩ 0 mark
        (cs.flatMap Value.escape ++ '\x22' :: rest) =
      .ok (String.ofList (text.reverse ++ (List.replicate n ' ' ++ cs)),
        ⟨rest, mark.along ((cs.flatMap Value.escape).length + 1)⟩) := by
  induction cs generalizing text n mark with
  | nil =>
    have hquote : isSpace '\x22' = false := by decide
    have hafter : mark.after '\x22' = mark.along 1 := Mark.after_of_ne (by decide)
    simp [doubleFrom, hquote, Nat.ne_of_gt hcolumn, hafter]
  | cons c cs ih =>
    rw [List.flatMap_cons, List.append_assoc]
    by_cases hspace : c = ' '
    · subst hspace
      have hafter : mark.after ' ' = mark.along 1 := Mark.after_of_ne (by decide)
      have hheld : doubleFrom start text ⟨List.replicate n ' ', false⟩ 0 mark
          (Value.escape ' ' ++ (cs.flatMap Value.escape ++ '\x22' :: rest)) =
          doubleFrom start text ⟨List.replicate (n + 1) ' ', false⟩ 0 (mark.along 1)
            (cs.flatMap Value.escape ++ '\x22' :: rest) := by
        rw [← hafter]
        rfl
      rw [hheld, ih (n + 1) (Nat.succ_pos _), Mark.along_along]
      simp [List.replicate_succ', Value.escape, Nat.add_assoc, Nat.add_comm 1]
    · have hpos : 0 < (mark.along (Value.escape c).length).column :=
        Nat.lt_of_lt_of_le hcolumn (Nat.le_add_right _ _)
      rw [doubleFrom_escape n hcolumn hspace]
      refine (ih 0 hpos).trans ?_
      rw [Mark.along_along]
      simp [Nat.add_assoc]

/-- A scalar in quotes is read as the text that was put in quotes. -/
theorem double_written (mark : Mark) (rest : List Char) (s : String) :
    double ⟨Style.quoted.written s ++ rest, mark⟩ =
      .ok (s, ⟨rest, mark.along (Style.quoted.written s).length⟩) := by
  have hafter : mark.after '\x22' = mark.along 1 := Mark.after_of_ne (by decide)
  have htext : ∀ m : Mark, double ⟨Style.quoted.written s ++ rest, m⟩ =
      doubleFrom m [] ⟨List.replicate 0 ' ', false⟩ 0 (m.after '\x22')
        (s.toList.flatMap Value.escape ++ '\x22' :: rest) := by
    intro m
    rw [Style.written, List.cons_append, List.append_assoc, List.singleton_append]
    rfl
  rw [htext, hafter, doubleFrom_text 0 (Nat.succ_pos _), Mark.along_along]
  simp [Style.written, Nat.add_comm]

end quoted

end Scalar

end Interconnect.Yaml
