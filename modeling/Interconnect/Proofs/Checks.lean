import Interconnect.Proofs.Checked

/-! # Checks in a fixed order

    A request that violates several conditions is refused for the first of them. A
    list of checks *governs* a chain of steps if the chain succeeds where all checks
    hold, and is refused for the first violated check otherwise (`Check.Governs`).

    A list that governs a chain is built along it: a guard adds a check
    (`Governs.guard`), a step that cannot fail adds none (`Governs.step`), and a chain
    behind another one adds its list (`Governs.append`).
-/

namespace Interconnect

/-- A condition on a request, and the refusal of a request that violates it. -/
structure Check where
  holds : Bool
  refusal : SynthesisError
  deriving DecidableEq, Repr

namespace Check

/-- The refusal of the first check that is violated. -/
def firstRefusal? (checks : List Check) : Option SynthesisError :=
  (checks.find? fun k => !k.holds).map (·.refusal)

/-- A chain of steps succeeds where all checks hold, and is refused for the first one
    that is violated. -/
def Governs {α : Type} (checks : List Check) (x : Except SynthesisError α) : Prop :=
  match firstRefusal? checks with
  | none => ∃ a, x = .ok a
  | some e => x = .error e

variable {α β : Type} {k : Check} {ks ls : List Check} {x : Except SynthesisError α}
  {y : Except SynthesisError β} {e : SynthesisError}

/-! ## First refusals -/

theorem firstRefusal?_cons_of_holds (h : k.holds = true) :
    firstRefusal? (k :: ks) = firstRefusal? ks := by
  rw [firstRefusal?, List.find?_cons_of_neg (by simp [h]), firstRefusal?]

theorem firstRefusal?_cons_of_not_holds (h : k.holds = false) :
    firstRefusal? (k :: ks) = some k.refusal := by
  rw [firstRefusal?, List.find?_cons_of_pos (by simp [h]), Option.map_some]

theorem firstRefusal?_append :
    firstRefusal? (ks ++ ls) = (firstRefusal? ks).or (firstRefusal? ls) := by
  rw [firstRefusal?, List.find?_append, Option.map_or]
  rfl

theorem firstRefusal?_map {γ : Type} (f : γ → Check) (xs : List γ) :
    firstRefusal? (xs.map f) = (xs.find? fun x => !(f x).holds).map fun x => (f x).refusal := by
  rw [firstRefusal?, List.find?_map, Option.map_map]
  rfl

theorem firstRefusal?_eq_none_iff : firstRefusal? ks = none ↔ ∀ k ∈ ks, k.holds := by
  simp [firstRefusal?]

/-- A first refusal is that of one of the checks. -/
theorem exists_of_firstRefusal? (h : firstRefusal? ks = some e) : ∃ k ∈ ks, k.refusal = e := by
  obtain ⟨k, hk, rfl⟩ := Option.map_eq_some_iff.mp h
  exact ⟨k, List.mem_of_find?_eq_some hk, rfl⟩

/-! ## Governed chains -/

theorem Governs.exists_ok_iff (h : Governs ks x) : (∃ a, x = .ok a) ↔ ∀ k ∈ ks, k.holds := by
  rw [← firstRefusal?_eq_none_iff]
  unfold Governs at h
  cases hfirst : firstRefusal? ks with
  | none => simpa [hfirst] using h
  | some e => simp_all

theorem Governs.eq_error_iff (h : Governs ks x) : x = .error e ↔ firstRefusal? ks = some e := by
  unfold Governs at h
  cases hfirst : firstRefusal? ks with
  | none =>
    rw [hfirst] at h
    obtain ⟨a, rfl⟩ := h
    simp
  | some e' =>
    rw [hfirst] at h
    rw [h]
    simp

/-- A step that succeeds is governed by no check. -/
theorem governs_nil_iff : Governs [] x ↔ ∃ a, x = .ok a :=
  .rfl

/-- A check that holds is none that a chain is refused for. -/
theorem Governs.cons (hk : k.holds = true) (h : Governs ks x) : Governs (k :: ks) x := by
  rwa [Governs, firstRefusal?_cons_of_holds hk]

theorem governs_error (hk : k.holds = false) :
    Governs (k :: ks) (.error k.refusal : Except SynthesisError α) := by
  rw [Governs, firstRefusal?_cons_of_not_holds hk]

/-- A refusal is governed by its check where that is violated. -/
theorem Governs.refusal {holds : Bool} {f : β → Except SynthesisError α} (h : ¬ holds = true) :
    Governs (⟨holds, e⟩ :: ks) (throw e >>= f) := by
  exact governs_error (k := ⟨holds, e⟩) (Bool.not_eq_true _ ▸ h)

/-- A check of a guard is violated where the guard refuses. -/
theorem Governs.guard {c : Prop} [Decidable c] {holds : Bool}
    {f : β → Except SynthesisError α} (hcheck : holds = true ↔ ¬ c)
    (h : holds = true → Governs ks x) :
    Governs (⟨holds, e⟩ :: ks) (if c then throw e >>= f else x) := by
  by_cases hc : c
  · rw [if_pos hc]
    exact .refusal fun hholds => hcheck.mp hholds hc
  · have hholds : holds = true := hcheck.mpr hc
    rw [if_neg hc]
    exact .cons hholds (h hholds)

/-- A guard that refuses unless its condition holds. -/
theorem Governs.require {c : Prop} [Decidable c] {holds : Bool}
    {f : β → Except SynthesisError α} (hcheck : holds = true ↔ c)
    (h : holds = true → Governs ks x) :
    Governs (⟨holds, e⟩ :: ks) (if c then x else throw e >>= f) := by
  by_cases hc : c
  · have hholds : holds = true := hcheck.mpr hc
    rw [if_pos hc]
    exact .cons hholds (h hholds)
  · rw [if_neg hc]
    exact .refusal fun hholds => hc (hcheck.mp hholds)

/-- A check that is known to hold can be left out. -/
theorem Governs.of_cons (h : Governs (k :: ks) x) (hk : k.holds = true) : Governs ks x := by
  rwa [Governs, firstRefusal?_cons_of_holds hk] at h

/-- A step that is known to succeed adds no check. -/
theorem Governs.step {a : α} {f : α → Except SynthesisError β} (hx : x = .ok a)
    (h : Governs ks (f a)) : Governs ks (x >>= f) := by
  rw [hx, ok_bind]
  exact h

/-- What is refused where a chain is, and governed by further checks where the chain
    succeeds, is governed by all of them. -/
theorem Governs.append (h : Governs ks x) (herror : ∀ e, x = .error e → y = .error e)
    (hok : ∀ a, x = .ok a → Governs ls y) : Governs (ks ++ ls) y := by
  rw [Governs, firstRefusal?_append]
  unfold Governs at h
  cases hfirst : firstRefusal? ks with
  | none =>
    rw [hfirst] at h
    obtain ⟨a, ha⟩ := h
    exact hok a ha
  | some e =>
    rw [hfirst] at h
    exact herror e h

/-- Checks that hold wherever those before them do can be left out. -/
theorem Governs.of_append (h : Governs (ks ++ ls) x)
    (hls : (∀ k ∈ ks, k.holds) → ∀ k ∈ ls, k.holds) : Governs ks x := by
  rw [Governs, firstRefusal?_append] at h
  unfold Governs
  cases hfirst : firstRefusal? ks with
  | none =>
    rw [hfirst, firstRefusal?_eq_none_iff.mpr (hls (firstRefusal?_eq_none_iff.mp hfirst))] at h
    exact h
  | some e =>
    rw [hfirst] at h
    exact h

theorem Governs.bind {f : α → Except SynthesisError β} (h : Governs ks x)
    (hf : ∀ a, x = .ok a → Governs ls (f a)) : Governs (ks ++ ls) (x >>= f) := by
  apply h.append
  · intro e hx
    rw [hx]
    rfl
  · intro a hx
    exact .step hx (hf a hx)

/-- A last step that cannot fail adds no check either. -/
theorem Governs.last {f : α → Except SynthesisError β} (h : Governs ks x)
    (hf : ∀ a, ∃ b, f a = .ok b) : Governs ks (x >>= f) := by
  rw [← List.append_nil ks]
  exact h.bind fun a _ => hf a

end Check

end Interconnect
