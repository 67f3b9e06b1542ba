import Interconnect.Yaml.Scalar.Quoted
import Interconnect.Yaml.Value
import Interconnect.Proofs.Text

/-! # How values are written

    A value is read back if it consists of scalars and of records with keys that are not too
    long (`Value.Readable`). The lemmas here say of which characters such a value is made.

    * A scalar is in quotes, or plain and without any indicator (`Style.Fits`).
    * What stands behind the `:` of a field is a scalar or an empty record on the same line, or
      a record whose fields begin on lines of their own, further in (`Value.behind`).
    * No character of a document is a NUL, at which a text would end.
-/

namespace Interconnect.Yaml

/-! ## Scalars -/

/-- A text that can stand without quotes: it has no indicator, does not begin with one of those
    that matter only there, and has no spaces at its ends. -/
structure IsPlain (cs : List Char) : Prop where
  ne_nil : cs ≠ []
  head : ∀ c, cs.head? = some c → c ≠ ' ' ∧ Value.isLeadingIndicator c = false
  last : cs.getLast? ≠ some ' '
  chars : ∀ c ∈ cs, Value.isIndicator c = false

/-- A text in a style. -/
def Style.written : Style → String → List Char
  | quoted, s => '\x22' :: (s.toList.flatMap Value.escape ++ ['\x22'])
  | _, s => s.toList

theorem Style.written_plain (s : String) : plain.written s = s.toList := rfl

/-- A text can be written in a style. -/
def Style.Fits : Style → String → Prop
  | quoted, _ => True
  | plain, s => IsPlain s.toList
  | block, _ => False

/-- A line break, and so many spaces in front of what follows. -/
def lineAt (column : Nat) (rest : List Char) : List Char :=
  '\n' :: (List.replicate column ' ' ++ rest)

@[simp] theorem lineAt_append (column : Nat) (rest more : List Char) :
    lineAt column rest ++ more = lineAt column (rest ++ more) := by
  simp [lineAt]

namespace Value

/-- The style that a text is written in. -/
def styleOf (s : String) : Style :=
  if needsQuotes s then .quoted else .plain

/-- The style and the text of a scalar. -/
def scalar? : Value → Option (Style × String)
  | null => some (.plain, "~")
  | bool b => some (.plain, toString b)
  | nat n => some (.plain, toString n)
  | text s => some (styleOf s, s)
  | list _ | record _ => none

theorem writtenText_toList (s : String) : (writtenText s).toList = (styleOf s).written s := by
  unfold writtenText styleOf
  split <;> simp [Style.written]

theorem isPlain_of_not_needsQuotes {s : String} (h : needsQuotes s = false) :
    IsPlain s.toList := by
  simp only [needsQuotes, Bool.or_eq_false_iff, decide_eq_false_iff_not] at h
  obtain ⟨⟨⟨⟨⟨⟨⟨hempty, hfirst⟩, hlast⟩, hleading⟩, hany⟩, -⟩, -⟩, -⟩ := h
  refine ⟨by simpa using hempty, ?_, hlast, ?_⟩
  · intro c hc
    rw [hc] at hfirst hleading
    exact ⟨fun hspace => hfirst (by rw [hspace]), by simpa using hleading⟩
  · intro c hc
    have hnone := List.any_eq_false.mp hany c hc
    simpa using hnone

theorem styleOf_fits (s : String) : (styleOf s).Fits s := by
  unfold styleOf
  split
  · trivial
  · next hplain => exact isPlain_of_not_needsQuotes (by simpa using hplain)

/-- A digit is no indicator, wherever it stands. -/
theorem not_indicator_of_isDigit : ∀ c : Char, c.isDigit = true →
    isIndicator c = false ∧ isLeadingIndicator c = false ∧ c ≠ ' ' :=
  Text.forall_isDigit (by decide)

/-- Whether a text can stand without quotes. -/
theorem isPlain_of_check {c : Char} {cs : List Char}
    (h : (c ≠ ' ' && !isLeadingIndicator c && (c :: cs).getLast? ≠ some ' ' &&
      (c :: cs).all fun c => !isIndicator c) = true) : IsPlain (c :: cs) := by
  simp only [Bool.and_eq_true, decide_eq_true_eq, Bool.not_eq_true', List.all_eq_true] at h
  obtain ⟨⟨⟨hspace, hleading⟩, hlast⟩, hchars⟩ := h
  refine ⟨List.cons_ne_nil c cs, ?_, hlast, hchars⟩
  rintro _ ⟨⟩
  exact ⟨hspace, hleading⟩

/-- Digits can stand without quotes. -/
theorem isPlain_repr (n : Nat) : IsPlain n.repr.toList := by
  have hdigits : ∀ c ∈ n.repr.toList,
      isIndicator c = false ∧ isLeadingIndicator c = false ∧ c ≠ ' ' :=
    fun c hc => not_indicator_of_isDigit c (Text.isDigit_of_mem_repr c hc)
  refine ⟨?_, ?_, ?_, fun c hc => (hdigits c hc).1⟩
  · rw [Nat.repr_eq_ofList_toDigits, String.toList_ofList]
    exact Nat.toDigits_ne_nil
  · intro c hc
    obtain ⟨-, hleading, hspace⟩ := hdigits c (List.mem_of_head? hc)
    exact ⟨hspace, hleading⟩
  · intro hlast
    exact (hdigits ' ' (List.mem_of_getLast? hlast)).2.2 rfl

/-- All that can be written for a character between quotes: the character itself, a letter that
    stands for it, or its code point. -/
theorem escape_cases (c : Char) :
    (escape c = [c] ∧ c ≠ '\x22' ∧ c ≠ '\x5c' ∧ (isSpace c = true → c = ' ') ∧ c ≠ '\x00') ∨
      (∃ x, escape c = ['\x5c', x] ∧ Scalar.escaped? x = some c ∧ isBreak x = false) ∨
      (escape c = ['\x5c', 'u', '0', '0', hexDigit (c.toNat / 16), hexDigit (c.toNat % 16)] ∧
        c.toNat < 128) := by
  by_cases hletter : c ∈ ['\x22', '\x5c', '\x08', '\t', '\n', '\x0c', '\r']
  · simp only [List.mem_cons, List.not_mem_nil, or_false] at hletter
    refine .inr (.inl ?_)
    rcases hletter with rfl | rfl | rfl | rfl | rfl | rfl | rfl
    · exact ⟨'\x22', rfl, rfl, rfl⟩
    · exact ⟨'\x5c', rfl, rfl, rfl⟩
    · exact ⟨'b', rfl, rfl, rfl⟩
    · exact ⟨'t', rfl, rfl, rfl⟩
    · exact ⟨'n', rfl, rfl, rfl⟩
    · exact ⟨'f', rfl, rfl, rfl⟩
    · exact ⟨'r', rfl, rfl, rfl⟩
  · simp only [List.mem_cons, List.not_mem_nil, or_false, not_or] at hletter
    obtain ⟨hquote, hslash, hbackspace, htab, hfeed, hform, hreturn⟩ := hletter
    simp only [escape, hquote, hslash, hbackspace, htab, hfeed, hform, hreturn, if_false,
      Bool.or_eq_true, decide_eq_true_eq]
    -- any other space than a blank is a letter or a control character
    by_cases hcontrol : c.toNat < 0x20 ∨ c.toNat = 0x7f
    · rw [if_pos hcontrol]
      exact .inr (.inr ⟨rfl, by omega⟩)
    · rw [if_neg hcontrol]
      refine .inl ⟨rfl, hquote, hslash, ?_, ?_⟩
      · intro hspace
        simpa [isSpace, isBlank, isBreak, htab, hfeed, hreturn] using hspace
      · rintro rfl
        exact hcontrol (.inl (by decide))

theorem length_flatMap_escape_le (cs : List Char) :
    (cs.flatMap escape).length ≤ 6 * cs.length := by
  induction cs with
  | nil => simp
  | cons c cs ih =>
    have hc : (escape c).length ≤ 6 := by
      rcases escape_cases c with ⟨hescape, -⟩ | ⟨x, hescape, -⟩ | ⟨hescape, -⟩ <;>
        simp [hescape]
    rw [List.flatMap_cons, List.length_append, List.length_cons]
    omega

variable {v : Value} {style : Style} {s : String}

theorem scalar_fits (h : v.scalar? = some (style, s)) : style.Fits s := by
  cases v with
  | null =>
    cases h
    exact isPlain_of_check rfl
  | bool b =>
    cases h
    cases b
    · exact isPlain_of_check rfl
    · exact isPlain_of_check rfl
  | nat n =>
    cases h
    exact isPlain_repr n
  | text t =>
    cases h
    exact styleOf_fits s
  | list items => cases h
  | record fields => cases h

/-- A scalar is written in a single piece. -/
theorem pieces_of_scalar (h : v.scalar? = some (style, s)) (depth : Nat) :
    (String.join (pieces depth v)).toList = style.written s := by
  cases v with
  | null =>
    cases h
    simp [pieces, Style.written]
  | bool b =>
    cases h
    simp [pieces, Style.written]
  | nat n =>
    cases h
    simp [pieces, Style.written]
  | text t =>
    cases h
    simp [pieces, writtenText_toList]
  | list items => cases h
  | record fields => cases h

/-! ## Records -/

/-- A key whose `:` is not too far behind its beginning. -/
def IsKey (name : String) : Prop :=
  ((styleOf name).written name).length ≤ 1024

/-- A key of a few words is not too long, even in quotes. -/
theorem isKey_of_length_le {name : String} (h : name.toList.length ≤ 170) : IsKey name := by
  have hquoted := length_flatMap_escape_le name.toList
  unfold IsKey styleOf
  split
  · simp only [Style.written, List.length_cons, List.length_append, List.length_nil]
    omega
  · rw [Style.written_plain]
    omega

theorem isKey_of_all {fields : List (String × Value)}
    (h : fields.all (fun f => f.1.toList.length ≤ 170) = true) : ∀ f ∈ fields, IsKey f.1 :=
  fun f hf => isKey_of_length_le (by simpa using List.all_eq_true.mp h f hf)

/-- A value of scalars and of records with keys that are not too long. -/
inductive Readable : Value → Prop
  | scalar {v : Value} {style : Style} {s : String} (h : v.scalar? = some (style, s)) : Readable v
  | record {fields : List (String × Value)} (keys : ∀ f ∈ fields, IsKey f.1)
      (values : ∀ f ∈ fields, Readable f.2) : Readable (.record fields)

/-- What stands behind the `:` of a field at a depth. -/
def behind (depth : Nat) (v : Value) : List Char :=
  (gap false (depth + 1) v).toList ++ (String.join (pieces (depth + 1) v)).toList

/-- What stands between a field at a depth and the end of its record. -/
def further (depth : Nat) (fields : List (String × Value)) : List Char :=
  (String.join (fieldPieces depth fields)).toList

/-- A key, its `:` and some text. -/
def entry (name : String) (rest : List Char) : List Char :=
  (styleOf name).written name ++ ':' :: rest

@[simp] theorem entry_append (name : String) (rest more : List Char) :
    entry name rest ++ more = entry name (rest ++ more) := by
  simp [entry]

theorem newline_toList (depth : Nat) :
    (newline depth).toList = '\n' :: List.replicate (2 * depth) ' ' := by
  have hspaces : ∀ (n : Nat) (t : String),
      (t.pushn ' ' n).toList = t.toList ++ List.replicate n ' ' := by
    intro n t
    rw [String.pushn_eq_repeat_push]
    induction n with
    | zero => simp [Nat.repeat]
    | succ n ih => rw [Nat.repeat, String.toList_push, ih, List.replicate_succ', List.append_assoc]
  rw [newline, String.toList_append, hspaces]
  rfl

theorem behind_scalar (h : v.scalar? = some (style, s)) (depth : Nat) :
    v.behind depth = ' ' :: style.written s := by
  have hgap : gap false (depth + 1) v = " " := by
    cases v with
    | list items => cases h
    | record fields => cases h
    | _ => rfl
  rw [behind, pieces_of_scalar h, hgap]
  rfl

theorem behind_empty (depth : Nat) : (record []).behind depth = [' ', '\x7b', '\x7d'] := by
  simp [behind, gap, pieces]

variable {name : String} {rest : List (String × Value)}

/-- The pieces of a record with fields. -/
theorem pieces_record (depth : Nat) :
    (String.join (pieces depth (.record ((name, v) :: rest)))).toList =
      entry name (v.behind depth ++ further depth rest) := by
  simp [pieces, entry, behind, further, writtenText_toList]

theorem behind_record (depth : Nat) :
    (record ((name, v) :: rest)).behind depth = lineAt (2 * (depth + 1))
      (entry name (v.behind (depth + 1) ++ further (depth + 1) rest)) := by
  rw [behind, pieces_record, gap, if_neg (by decide), newline_toList]
  rfl

theorem further_nil (depth : Nat) : further depth [] = [] := by
  simp [further, fieldPieces]

theorem further_cons (depth : Nat) :
    further depth ((name, v) :: rest) =
      lineAt (2 * depth) (entry name (v.behind depth ++ further depth rest)) := by
  simp [further, fieldPieces, entry, behind, lineAt, writtenText_toList, newline_toList]

/-! ## Documents -/

theorem document_empty :
    (document (.record [])).toList =
      ['-', '-', '-'] ++ lineAt 0 ('\x7b' :: '\x7d' :: lineAt 0 []) := by
  simp [document, pieces, lineAt]

theorem document_record :
    (document (.record ((name, v) :: rest))).toList =
      ['-', '-', '-'] ++ lineAt 0 (entry name (v.behind 0 ++ (further 0 rest ++ lineAt 0 []))) := by
  simp only [document, String.toList_append, pieces_record]
  simp [lineAt]

theorem nul_not_mem_escape (c : Char) : '\x00' ∉ escape c := by
  have hdigit : ∀ n < 16, '\x00' ≠ hexDigit n := by decide
  rcases escape_cases c with ⟨hescape, -, -, -, hnul⟩ | ⟨x, hescape, hx, -⟩ | ⟨hescape, hlt⟩
  · simp [hescape, hnul.symm]
  · have hne : '\x00' ≠ x := by
      rintro rfl
      cases hx
    simp [hescape, hne]
  · simp [hescape, hdigit _ (show c.toNat / 16 < 16 by omega),
      hdigit _ (Nat.mod_lt c.toNat (by decide))]

theorem nul_not_mem_written (h : style.Fits s) : '\x00' ∉ style.written s := by
  cases style with
  | quoted =>
    intro hmem
    simp only [Style.written, List.mem_cons, List.mem_append, List.mem_flatMap] at hmem
    rcases hmem with hquote | ⟨c, -, hc⟩ | hquote | hnil
    · cases hquote
    · exact nul_not_mem_escape c hc
    · cases hquote
    · cases hnil
  | plain => exact fun hmem => absurd (h.chars _ hmem) (by decide)
  | block => exact h.elim

@[simp] theorem nul_mem_lineAt {column : Nat} {cs : List Char} :
    '\x00' ∈ lineAt column cs ↔ '\x00' ∈ cs := by
  simp [lineAt]

@[simp] theorem nul_mem_entry {cs : List Char} : '\x00' ∈ entry name cs ↔ '\x00' ∈ cs := by
  simp [entry, nul_not_mem_written (styleOf_fits name)]

theorem nul_not_mem_further (depth : Nat) (h : ∀ f ∈ rest, '\x00' ∉ f.2.behind depth) :
    '\x00' ∉ further depth rest := by
  induction rest with
  | nil => simp [further_nil]
  | cons f rest ih =>
    obtain ⟨name, v⟩ := f
    have hv : '\x00' ∉ v.behind depth := h (name, v) List.mem_cons_self
    have hrest := ih fun f hf => h f (List.mem_cons_of_mem _ hf)
    simp [further_cons, hv, hrest]

theorem Readable.nul_not_mem_behind (hv : v.Readable) (depth : Nat) : '\x00' ∉ v.behind depth := by
  induction hv generalizing depth with
  | scalar h => simp [behind_scalar h, nul_not_mem_written (scalar_fits h)]
  | @record fields _ _ ih =>
    cases fields with
    | nil => simp [behind_empty]
    | cons f rest =>
      obtain ⟨name, w⟩ := f
      have hw : '\x00' ∉ w.behind (depth + 1) := ih (name, w) List.mem_cons_self (depth + 1)
      have hrest : '\x00' ∉ further (depth + 1) rest :=
        nul_not_mem_further _ fun f hf => ih f (List.mem_cons_of_mem _ hf) (depth + 1)
      simp [behind_record, hw, hrest]

/-- The document of a record has no NUL. -/
theorem Readable.nul_not_mem_document {fields : List (String × Value)}
    (h : (Value.record fields).Readable) : '\x00' ∉ (document (.record fields)).toList := by
  obtain ⟨⟨⟩⟩ | ⟨-, values⟩ := h
  cases fields with
  | nil => simp [document_empty]
  | cons f rest =>
    obtain ⟨name, v⟩ := f
    have hv := (values (name, v) List.mem_cons_self).nul_not_mem_behind 0
    have hrest := nul_not_mem_further 0 fun f hf =>
      (values f (List.mem_cons_of_mem _ hf)).nul_not_mem_behind 0
    simp [document_record, hv, hrest]

end Value

end Interconnect.Yaml
