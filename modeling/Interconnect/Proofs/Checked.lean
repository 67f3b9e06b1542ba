import Interconnect.SynthesisError
import Mathlib.Data.List.Forall2

/-! # Steps that succeed

    A synthesis is a chain of steps that may be refused. The lemmas here read a
    chain that succeeded backwards: what each of its steps returned, and which
    guard each of them passed.
-/

namespace Interconnect

/-! ## Chains of steps -/

section chains

variable {ε α β γ : Type}

theorem bind_eq_ok {x : Except ε α} {f : α → Except ε β} {b : β} :
    (x >>= f) = .ok b ↔ ∃ a, x = .ok a ∧ f a = .ok b := by
  cases x <;> simp [bind, Except.bind]

/-- A step that succeeded hands its value on. -/
theorem ok_bind {a : α} {f : α → Except ε β} : ((.ok a : Except ε α) >>= f) = f a :=
  rfl

/-- A chain shows no more of its first step than what comes of the value. -/
theorem map_bind_congr {x : Except ε α} {f g : α → Except ε β} {k : β → γ}
    (h : ∀ a, (f a).map k = (g a).map k) : (x >>= f).map k = (x >>= g).map k := by
  cases x with
  | error e => rfl
  | ok a => exact h a

/-- What a chain shows is read off what its first step shows, if its second step can be. -/
theorem map_bind_eq {δ : Type} {x : Except ε α} {f : α → Except ε β} {k : β → γ} {k' : α → δ}
    {g : δ → Except ε γ} (h : ∀ a, (f a).map k = g (k' a)) : (x >>= f).map k = x.map k' >>= g := by
  cases x with
  | error e => rfl
  | ok a => exact h a

/-- Two steps that show the same have failed alike, or have values that show the same. -/
theorem map_eq_map_cases {x y : Except ε α} {k : α → β} (h : x.map k = y.map k) :
    (∃ e, x = .error e ∧ y = .error e) ∨ ∃ a b, x = .ok a ∧ y = .ok b ∧ k a = k b := by
  cases x with
  | error e =>
    cases y with
    | error e' => exact .inl ⟨e, rfl, by rw [Except.error.inj h]⟩
    | ok b => cases h
  | ok a =>
    cases y with
    | error e' => cases h
    | ok b => exact .inr ⟨a, b, rfl, rfl, Except.ok.inj h⟩

theorem pure_eq_ok {a b : α} : (pure a : Except ε α) = .ok b ↔ a = b := by
  simp [pure, Except.pure]

theorem throw_eq_ok {e : ε} {a : α} : (throw e : Except ε α) = .ok a ↔ False := by
  simp [throw, throwThe, MonadExceptOf.throw]

/-- A chain behind a refusal succeeds only if the refusal does not apply. -/
theorem ite_error_eq_ok {c : Prop} [Decidable c] {e : ε} {x : Except ε α} {a : α} :
    (if c then .error e else x) = .ok a ↔ ¬ c ∧ x = .ok a := by
  by_cases hc : c <;> simp [hc]

theorem ite_throw_eq_ok {c : Prop} [Decidable c] {e : ε} {f : β → Except ε α} {x : Except ε α}
    {a : α} : (if c then throw e >>= f else x) = .ok a ↔ ¬ c ∧ x = .ok a := by
  by_cases hc : c <;> simp [hc, throw, throwThe, MonadExceptOf.throw, bind, Except.bind]

theorem ite_else_throw_eq_ok {c : Prop} [Decidable c] {e : ε} {f : β → Except ε α}
    {x : Except ε α} {a : α} : (if c then x else throw e >>= f) = .ok a ↔ c ∧ x = .ok a := by
  by_cases hc : c <;> simp [hc, throw, throwThe, MonadExceptOf.throw, bind, Except.bind]

theorem ite_eq_ok {c : Prop} [Decidable c] {x y : Except ε α} {a : α} :
    (if c then x else y) = .ok a ↔ (c ∧ x = .ok a) ∨ (¬ c ∧ y = .ok a) := by
  by_cases hc : c <;> simp [hc]

/-- A faultless step is one whose refusal would have been its fault. -/
theorem liftM_eq_ok {x : Checked α} {a : α} :
    (liftM x : Except SynthesisError α) = .ok a ↔ x = .ok a := by
  cases x with
  | ok b => simp [liftM, monadLift, MonadLift.monadLift]
  | error f => simp [liftM, monadLift, MonadLift.monadLift]

theorem map_liftM {x : Checked α} {f : α → β} :
    (liftM x : Except SynthesisError α).map f = liftM (x.map f) := by
  cases x <;> rfl

theorem liftM_bind {x : Checked α} {f : α → Checked β} :
    (liftM (x >>= f) : Except SynthesisError β) = liftM x >>= fun a => liftM (f a) := by
  cases x <;> rfl

theorem mapM_eq_ok_iff {f : α → Except ε β} {xs : List α} {ys : List β} :
    xs.mapM f = .ok ys ↔ List.Forall₂ (fun x y => f x = .ok y) xs ys := by
  induction xs generalizing ys with
  | nil => simp [pure, Except.pure, eq_comm]
  | cons x xs ih =>
    simp only [List.mapM_cons, bind_eq_ok, pure_eq_ok]
    constructor
    · intro h
      obtain ⟨y, hy, zs, hzs, rfl⟩ := h
      exact .cons hy (ih.mp hzs)
    · intro h
      rcases h with _ | ⟨hy, hzs⟩
      exact ⟨_, hy, _, ih.mpr hzs, rfl⟩

/-- Steps whose values can only be read in one way return a list that is read so. -/
theorem map_eq_map_of_mapM {f : α → Except ε β} {k : β → γ} {g : α → γ} {xs : List α}
    {ys : List β} (only : ∀ x y, f x = .ok y → k y = g x) (h : xs.mapM f = .ok ys) :
    ys.map k = xs.map g := by
  have hall := mapM_eq_ok_iff.mp h
  induction hall with
  | nil => rfl
  | cons hy _ ih =>
    rw [List.map_cons, List.map_cons, only _ _ hy, ih (mapM_eq_ok_iff.mpr ‹_›)]

/-- Steps that can only return one value each return the list of those values. -/
theorem eq_map_of_mapM {f : α → Except ε β} {g : α → β} {xs : List α} {ys : List β}
    (only : ∀ x y, f x = .ok y → y = g x) (h : xs.mapM f = .ok ys) : ys = xs.map g := by
  have hmap := map_eq_map_of_mapM (k := id) only h
  rwa [List.map_id] at hmap

/-- Each value returned is the value of one of the steps. -/
theorem exists_of_mem_mapM {f : α → Except ε β} {xs : List α} {ys : List β} {y : β}
    (h : xs.mapM f = .ok ys) (hy : y ∈ ys) : ∃ x ∈ xs, f x = .ok y := by
  have hall := mapM_eq_ok_iff.mp h
  induction hall with
  | nil => cases hy
  | @cons x z xs zs hz _ ih =>
    rcases List.mem_cons.mp hy with rfl | hy
    · exact ⟨x, List.mem_cons_self, hz⟩
    · obtain ⟨w, hw, hwy⟩ := ih (mapM_eq_ok_iff.mpr ‹_›) hy
      exact ⟨w, List.mem_cons_of_mem _ hw, hwy⟩

/-- A chain of steps that each succeed returns a list. -/
theorem exists_mapM {f : α → Except ε β} {xs : List α}
    (h : ∀ x ∈ xs, ∃ y, f x = .ok y) : ∃ ys, xs.mapM f = .ok ys := by
  induction xs with
  | nil => exact ⟨[], rfl⟩
  | cons x xs ih =>
    obtain ⟨y, hy⟩ := h x List.mem_cons_self
    obtain ⟨ys, hys⟩ := ih fun x hx => h x (List.mem_cons_of_mem _ hx)
    refine ⟨y :: ys, ?_⟩
    rw [List.mapM_cons, hy, hys]
    rfl

end chains

/-! ## Arithmetic on words -/

namespace Word

variable {a b c : Nat}

theorem add_ok_iff : add a b = .ok c ↔ a + b < bound ∧ c = a + b := by
  unfold add
  split <;> simp [*, eq_comm]

theorem sub_ok_iff : sub a b = .ok c ↔ b ≤ a ∧ c = a - b := by
  unfold sub
  split <;> simp [*, eq_comm]

theorem mul_ok_iff : mul a b = .ok c ↔ a * b < bound ∧ c = a * b := by
  unfold mul
  split <;> simp [*, eq_comm]

theorem div_ok_iff : div a b = .ok c ↔ b ≠ 0 ∧ c = a / b := by
  unfold div
  split <;> simp [*, eq_comm]

theorem rem_ok_iff : rem a b = .ok c ↔ b ≠ 0 ∧ c = a % b := by
  unfold rem
  split <;> simp [*, eq_comm]

theorem length_ok_iff {bytes : Nat} :
    length bytes a = .ok c ↔ a * bytes < block ∧ c = a := by
  unfold length
  split <;> simp [*, eq_comm]

theorem drop_ok_iff {α : Type} {entries rest : List α} :
    drop entries a = .ok rest ↔ a ≤ entries.length ∧ rest = entries.drop a := by
  unfold drop
  split <;> simp [*, eq_comm]

end Word

end Interconnect
