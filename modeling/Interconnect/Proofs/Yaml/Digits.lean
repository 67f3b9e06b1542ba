import Interconnect.Yaml.Scalar.Meaning
import Interconnect.Proofs.Text

/-! # Digits are read back

    The decimal digits of a number are a plain scalar that denotes the number
    (`untagged_repr`). No sign, no base and no word comes in between, as all of them have other
    characters than digits, and no zero stands in front of further digits.
-/

namespace Interconnect.Yaml

namespace Scalar

theorem digitValue?_of_isDigit :
    ∀ c : Char, c.isDigit = true → digitValue? 10 c = some (c.toNat - '0'.toNat) :=
  Text.forall_isDigit (by decide)

theorem foldlM_digits {cs : List Char} (hcs : ∀ c ∈ cs, c.isDigit) (n : Nat) :
    cs.foldlM (fun n c => do return n * 10 + (← digitValue? 10 c)) n =
      some (Nat.ofDigitChars 10 cs n) := by
  induction cs generalizing n with
  | nil => rfl
  | cons c cs ih =>
    rw [List.foldlM_cons, digitValue?_of_isDigit c (hcs c List.mem_cons_self)]
    refine (ih (fun c hc => hcs c (List.mem_cons_of_mem _ hc)) _).trans ?_
    rw [Nat.ofDigitChars_cons, Nat.mul_comm 10]

variable {n : Nat} {cs : List Char}

theorem natural?_of_isDigit (hne : cs ≠ []) (hcs : ∀ c ∈ cs, c.isDigit) :
    natural? 10 cs = some (Nat.ofDigitChars 10 cs 0) := by
  obtain ⟨c, cs, rfl⟩ := List.exists_cons_of_ne_nil hne
  exact foldlM_digits hcs 0

/-- Digits without a base in front of them are decimal. -/
theorem basedInteger?_of_isDigit (hcs : ∀ c ∈ cs, c.isDigit) : basedInteger? cs = none := by
  have hbase : ∀ c, c.isDigit = true → base? c = none := by
    intro c hc
    unfold base?
    split
    · exact absurd hc (by decide)
    · exact absurd hc (by decide)
    · exact absurd hc (by decide)
    · rfl
  -- there is neither a sign nor the letter of a base
  unfold basedInteger?
  split
  · exact absurd (hcs '-' List.mem_cons_self) (by decide)
  · exact absurd (hcs '+' List.mem_cons_self) (by decide)
  · rw [hbase _ (hcs _ (by simp))]
    rfl
  · rfl

theorem decimalInteger?_of_isDigit (hne : cs ≠ []) (hcs : ∀ c ∈ cs, c.isDigit) :
    decimalInteger? cs = some (Int.ofNat (Nat.ofDigitChars 10 cs 0)) := by
  unfold decimalInteger?
  split
  · exact absurd (hcs '-' List.mem_cons_self) (by decide)
  · unfold positive?
    split
    · exact absurd (hcs '+' List.mem_cons_self) (by decide)
    · rw [natural?_of_isDigit hne hcs]
      rfl

theorem repr_toList (n : Nat) : n.repr.toList = Nat.toDigits 10 n := by
  rw [Nat.repr_eq_ofList_toDigits, String.toList_ofList]

theorem isDigit_of_mem_toDigits : ∀ c ∈ Nat.toDigits 10 n, c.isDigit :=
  fun _ hc => Nat.isDigit_of_mem_toDigits (by decide) (by decide) hc

/-- The digits of a number other than zero do not begin with a zero. -/
theorem head?_toDigits_ne (hn : 0 < n) : (Nat.toDigits 10 n).head? ≠ some '0' := by
  induction n using Nat.strongRecOn with
  | ind n ih =>
    by_cases hlt : n < 10
    · have hall : ∀ n < 10, 0 < n → [n.digitChar].head? ≠ some '0' := by decide
      rw [Nat.toDigits_of_lt_base hlt]
      exact hall n hlt hn
    · -- the first digit stays when the last one is cut off
      have hhead := ih (n / 10) (by omega) (by omega)
      obtain ⟨c, cs, hcs⟩ := List.exists_cons_of_ne_nil
        (Nat.toDigits_ne_nil (b := 10) (n := n / 10))
      rw [Nat.toDigits_of_base_le (by decide) (by omega), hcs]
      rw [hcs] at hhead
      exact hhead

theorem hasIdleZero_toDigits : hasIdleZero (Nat.toDigits 10 n) = false := by
  have hsign : (Text.Real.splitSign (Nat.toDigits 10 n)).2 = Nat.toDigits 10 n := by
    unfold Text.Real.splitSign
    split
    · next heq =>
      exact absurd (isDigit_of_mem_toDigits '+' (heq ▸ List.mem_cons_self)) (by decide)
    · next heq =>
      exact absurd (isDigit_of_mem_toDigits '-' (heq ▸ List.mem_cons_self)) (by decide)
    · rfl
  rw [hasIdleZero, hsign]
  -- zero is a zero, but no digits follow it
  by_cases hn : 0 < n
  · simp [head?_toDigits_ne hn]
  · rw [Nat.eq_zero_of_not_pos hn]
    rfl

theorem sized?_word (x : UInt64) :
    sized? (Int.ofNat x.toNat) = some (.integer (Int.ofNat x.toNat)) := by
  have hbetween : isBetween 63 64 (Int.ofNat x.toNat) = true := by
    have hlt := x.toNat_lt
    simp [isBetween]
    omega
  rw [sized?, if_pos hbetween]

/-- A text with anything but digits is not a number. -/
theorem repr_ne (n : Nat) {s : String} (hs : s.toList.any (fun c => !c.isDigit) = true) :
    n.repr ≠ s := by
  rintro rfl
  obtain ⟨c, hc, hdigit⟩ := List.any_eq_true.mp hs
  simp [Text.isDigit_of_mem_repr c hc] at hdigit

/-- No word that stands for something else is a number. -/
theorem repr_ne_words (n : Nat) :
    ¬(n.repr = "~" ∨ n.repr = "null") ∧ n.repr ≠ "true" ∧ n.repr ≠ "false" :=
  ⟨not_or.mpr ⟨repr_ne n (by simp), repr_ne n (by simp)⟩, repr_ne n (by simp),
    repr_ne n (by simp)⟩

theorem decimalInteger?_repr (n : Nat) : decimalInteger? n.repr.toList = some (Int.ofNat n) := by
  rw [repr_toList, decimalInteger?_of_isDigit Nat.toDigits_ne_nil isDigit_of_mem_toDigits,
    Nat.ofDigitChars_ten_toDigits]

/-- The digits of a number of at most 64 bits are read as that number. -/
theorem untagged_repr (x : UInt64) : untagged x.toNat.repr = .integer (Int.ofNat x.toNat) := by
  obtain ⟨hnothing, htrue, hfalse⟩ := repr_ne_words x.toNat
  rw [untagged, if_neg hnothing, if_neg htrue, if_neg hfalse, decimalInteger?_repr, repr_toList,
    basedInteger?_of_isDigit isDigit_of_mem_toDigits, hasIdleZero_toDigits, Option.bind_some,
    sized?_word]
  simp

end Scalar

end Interconnect.Yaml
