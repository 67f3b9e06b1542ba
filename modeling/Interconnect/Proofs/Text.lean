import Interconnect.Family

/-! # Texts taken apart

    What is written line by line can be read back if no line holds a line break, and a
    number can be told from the text after it if that text does not begin with a digit. In
    this way a title says which family it is of, and of what extent (`Family.title_inj`).
-/

namespace Interconnect

namespace Text

/-! ## Lines -/

/-- The lines of a text: what its line breaks part, without the empty rest after a last one. -/
def lines (text : String) : List String :=
  let pieces := (text.split '\n').toList.map (·.copy)
  if pieces.getLast? = some "" then pieces.dropLast else pieces

/-- Lines as a text. -/
def unlines (ls : List String) : String :=
  String.join (ls.map (· ++ "\n"))

/-- A text without line breaks. -/
def IsLine (text : String) : Prop :=
  '\n' ∉ text.toList

@[simp] theorem unlines_nil : unlines [] = "" := by simp [unlines]

@[simp] theorem unlines_cons (l : String) (ls : List String) :
    unlines (l :: ls) = l ++ "\n" ++ unlines ls := by
  simp [unlines]

@[simp] theorem unlines_append (ls ls' : List String) :
    unlines (ls ++ ls') = unlines ls ++ unlines ls' := by
  simp [unlines]

/-- Lines with a break after each are parted by breaks, the last one from nothing. -/
theorem unlines_eq_intercalate (ls : List String) :
    unlines ls = (String.singleton '\n').intercalate (ls ++ [""]) := by
  induction ls with
  | nil => simp
  | cons l ls ih =>
    rw [unlines_cons, ih, List.cons_append, String.intercalate_cons_of_ne_nil (by simp)]
    rfl

theorem lines_unlines {ls : List String} (h : ∀ l ∈ ls, IsLine l) : lines (unlines ls) = ls := by
  have hbreaks : ∀ l ∈ ls ++ [""], '\n' ∉ l.toList := by
    intro l hl
    rcases List.mem_append.mp hl with hl | hl
    · exact h l hl
    · simp [List.mem_singleton.mp hl]
  have hpieces : ((unlines ls).split '\n').toList.map (·.copy) = ls ++ [""] := by
    rw [unlines_eq_intercalate, String.toList_split_intercalate hbreaks, if_neg (by simp)]
  simp [lines, hpieces]

theorem unlines_inj {ls ls' : List String} (h : ∀ l ∈ ls, IsLine l) (h' : ∀ l ∈ ls', IsLine l) :
    unlines ls = unlines ls' ↔ ls = ls' := by
  constructor
  · intro heq
    rw [← lines_unlines h, heq, lines_unlines h']
  · exact congrArg unlines

@[simp] theorem isLine_append {a b : String} : IsLine (a ++ b) ↔ IsLine a ∧ IsLine b := by
  simp [IsLine]

/-! ## Numbers -/

/-- There are ten digits to be looked at. -/
theorem forall_isDigit {P : Char → Prop} (h : ∀ n < 10, P (Char.ofNat (48 + n))) (c : Char)
    (hc : c.isDigit = true) : P c := by
  have hrange : 48 ≤ c.toNat ∧ c.toNat ≤ 57 := by
    simpa [Char.isDigit, UInt32.le_iff_toNat_le] using hc
  obtain ⟨n, hn⟩ := Nat.exists_eq_add_of_le hrange.1
  have hP := h n (by omega)
  rwa [← hn, Char.ofNat_toNat] at hP

theorem isDigit_of_mem_repr {n : Nat} : ∀ c ∈ n.repr.toList, c.isDigit := by
  intro c hc
  rw [Nat.repr_eq_ofList_toDigits, String.toList_ofList] at hc
  exact Nat.isDigit_of_mem_toDigits (by decide) (by decide) hc

@[simp] theorem isLine_repr (n : Nat) : IsLine n.repr := by
  intro hmem
  have := isDigit_of_mem_repr _ hmem
  simp at this

/-- A text that does not begin with such a character. -/
def Stops (p : Char → Bool) (text : String) : Prop :=
  text.toList.head?.any p = false

/-- What goes on while a condition holds can be told from what follows. -/
theorem append_inj_of_stops {p : Char → Bool} {a b r q : String} (ha : ∀ c ∈ a.toList, p c)
    (hb : ∀ c ∈ b.toList, p c) (hr : Stops p r) (hq : Stops p q) (h : a ++ r = b ++ q) :
    a = b ∧ r = q := by
  have hspan : ∀ {a r : String}, (∀ c ∈ a.toList, p c) → Stops p r →
      (a ++ r).toList.takeWhile p = a.toList := by
    intro a r ha hr
    rw [String.toList_append, List.takeWhile_append_of_pos ha]
    cases hlist : r.toList with
    | nil => simp
    | cons c rest =>
      have hc : p c = false := by simpa [Stops, hlist] using hr
      simp [hc]
  have hab : a = b := by rw [← String.toList_inj, ← hspan ha hr, h, hspan hb hq]
  subst hab
  exact ⟨rfl, (String.append_right_inj a).mp h⟩

/-- A number that stands between a fixed text and something that does not begin with a digit
    can be read off. -/
theorem append_repr_inj {text : String} {m n : Nat} {r q : String} (hr : Stops Char.isDigit r)
    (hq : Stops Char.isDigit q) :
    text ++ (m.repr ++ r) = text ++ (n.repr ++ q) ↔ m = n ∧ r = q := by
  constructor
  · intro h
    obtain ⟨hmn, hrq⟩ := append_inj_of_stops isDigit_of_mem_repr isDigit_of_mem_repr hr hq
      ((String.append_right_inj text).mp h)
    -- the value of the digits is the number
    have hvalue := congrArg (fun s : String => Nat.ofDigitChars 10 s.toList 0) hmn
    exact ⟨by simpa [Nat.repr_eq_ofList_toDigits] using hvalue, hrq⟩
  · rintro ⟨rfl, rfl⟩
    rfl

end Text

open Text (IsLine Stops append_inj_of_stops append_repr_inj)

/-! ## Titles -/

namespace Family

variable {f f' : Family} {g g' : Grid}

theorem isAlpha_of_mem_name : ∀ c ∈ f.name.toList, c.isAlpha := by
  cases f <;> simp [name]

theorem name_inj : f.name = f'.name ↔ f = f' := by
  cases f <;> cases f' <;> simp [name]

/-- A title says which family it is of, and of what extent. -/
theorem title_inj : f.title g = f'.title g' ↔ f = f' ∧ g = g' := by
  constructor
  · intro h
    simp only [title, toString, String.append_assoc] at h
    obtain ⟨hname, h⟩ := append_inj_of_stops isAlpha_of_mem_name isAlpha_of_mem_name
      (by simp [Stops]) (by simp [Stops]) h
    obtain ⟨hrows, h⟩ := (append_repr_inj (by simp [Stops]) (by simp [Stops])).mp h
    obtain ⟨hcols, -⟩ := (append_repr_inj (by simp [Stops]) (by simp [Stops])).mp h
    exact ⟨name_inj.mp hname, by cases g; cases g'; simp_all⟩
  · rintro ⟨rfl, rfl⟩
    rfl

theorem isLine_title (f : Family) (g : Grid) : IsLine (f.title g) := by
  have hname : IsLine f.name := by cases f <;> simp [name, IsLine]
  have hrest : IsLine " (" ∧ IsLine " x " ∧ IsLine ")" := by simp [IsLine]
  simp [title, toString, hname, hrest]

end Family

end Interconnect
