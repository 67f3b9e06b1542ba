import Interconnect.Proofs.Checks
import Interconnect.Proofs.Placement
import Mathlib.Algebra.Group.Nat.Defs

/-! # What a placement comes to

    Either rule of attachment makes its checks in a fixed order: dealing out asks for DMA
    engines behind the last full round, concentration for equal shares of the caches and for
    directories that fit at their stride. What passes them is placed (`stripe_governed`,
    `concentrate_governed`).
-/

namespace Interconnect.Placement

open Check (Governs)

variable {endpoints : List Endpoint} {routers directories : Nat}

/-! ## The checks of a placement -/

/-- Whatever does not fill a round of the routers is a DMA engine. -/
def leftoverChecks (endpoints : List Endpoint) (routers : Nat) : List Check :=
  (endpoints.drop (endpoints.length / routers * routers)).map fun e =>
    ⟨e.kind = .dma, .unexpectedLeftover e.id e.kind⟩

/-- Every router has an equal share of the caches, there are no more directories than
    caches, and they fit at the stride that the configured number of them sets. -/
def shareChecks (endpoints : List Endpoint) (routers configured : Nat) : List Check :=
  let caches := (cachesOf endpoints).length
  let directories := (directoriesOf endpoints).length
  [⟨routers ∣ caches, .unevenCaches caches routers⟩,
    ⟨directories ≤ caches, .tooManyDirectories directories caches⟩,
    ⟨directories = 0 ∨ (1 ≤ configured ∧ configured ≤ routers ∧
        (directories - 1) * (routers / configured) < routers),
      .invalidDirectoryStride (max directories configured) routers⟩]

/-! ## Governed placements -/

theorem stripe_governed (hpos : 0 < routers) (hlength : endpoints.length < Word.bound) :
    Governs (leftoverChecks endpoints routers) (stripe endpoints routers) := by
  have hstriped := Nat.div_mul_le_self endpoints.length routers
  have hfirst : Check.firstRefusal? (leftoverChecks endpoints routers) =
      ((endpoints.drop (endpoints.length / routers * routers)).find? fun e => e.kind ≠ .dma).map
        fun e => .unexpectedLeftover e.id e.kind := by
    simp only [leftoverChecks, Check.firstRefusal?_map, decide_not]
  refine .step (liftM_eq_ok.mpr (Word.div_eq_ok (by omega))) ?_
  refine .step (liftM_eq_ok.mpr (Word.mul_eq_ok (by omega))) ?_
  refine .step (liftM_eq_ok.mpr (Word.drop_eq_ok hstriped)) ?_
  rw [Governs, hfirst]
  generalize List.find? _ (endpoints.drop (endpoints.length / routers * routers)) = leftover
  cases leftover with
  | some leftover => rfl
  | none =>
    -- every endpoint goes to a router, for a remainder by their number exists
    apply exists_mapM
    rintro ⟨e, i⟩ -
    by_cases hi : i < endpoints.length / routers * routers
    · simp only [if_pos hi, bind_eq_ok, liftM_eq_ok, pure_eq_ok]
      exact ⟨_, _, Word.rem_eq_ok (by omega), rfl⟩
    · simp only [if_neg hi]
      exact ⟨_, rfl⟩

/-- Whether directories fit at a stride is always known if their places are words. -/
theorem strideFits_eq_ok {present stride : Nat} (h : present * stride < Word.bound) :
    strideFits present stride routers =
      .ok (decide (present = 0 ∨ (1 ≤ stride ∧ (present - 1) * stride < routers))) := by
  unfold strideFits
  by_cases hnone : present = 0
  · simp [hnone, pure, Except.pure]
  · by_cases hstride : stride = 0
    · simp [hnone, hstride, pure, Except.pure]
    · have hlast : (present - 1) * stride < Word.bound :=
        Nat.lt_of_le_of_lt (Nat.mul_le_mul_right _ (by omega)) h
      simp only [if_neg hnone, if_neg hstride, Word.sub_eq_ok (show 1 ≤ present by omega), ok_bind,
        Word.mul_eq_ok hlast, pure, Except.pure, Except.ok.injEq, decide_eq_decide]
      omega

/-- Equal shares have a place for every cache. -/
theorem exists_cachePlaces (hdvd : routers ∣ (cachesOf endpoints).length) :
    ∃ places, (cachesOf endpoints).zipIdx.mapM (fun (e, i) => do
      return (⟨e, ← Word.div i ((cachesOf endpoints).length / routers)⟩ : Placement)) =
      (.ok places : Except SynthesisError (List Placement)) := by
  apply exists_mapM
  rintro ⟨e, i⟩ he
  -- where there is a cache, no share is empty
  have hi : i < (cachesOf endpoints).length := by simpa using List.snd_lt_of_mem_zipIdx he
  have hshare : (cachesOf endpoints).length / routers ≠ 0 := by
    intro hzero
    have hmul := Nat.div_mul_cancel hdvd
    rw [hzero, Nat.zero_mul] at hmul
    omega
  simp only [bind_eq_ok, liftM_eq_ok, pure_eq_ok]
  exact ⟨_, _, Word.div_eq_ok hshare, rfl⟩

/-- Directories at a stride have places if the places are words. -/
theorem exists_directoryPlaces {stride : Nat}
    (hsize : (directoriesOf endpoints).length * stride < Word.bound) :
    ∃ places, (directoriesOf endpoints).zipIdx.mapM (fun (e, i) => do
      return (⟨e, ← Word.mul i stride⟩ : Placement)) =
      (.ok places : Except SynthesisError (List Placement)) := by
  apply exists_mapM
  rintro ⟨e, i⟩ he
  have hi : i < (directoriesOf endpoints).length := by simpa using List.snd_lt_of_mem_zipIdx he
  have hplace : i * stride < Word.bound :=
    Nat.lt_of_le_of_lt (Nat.mul_le_mul_right _ (by omega)) hsize
  simp only [bind_eq_ok, liftM_eq_ok, pure_eq_ok]
  exact ⟨_, _, Word.mul_eq_ok hplace, rfl⟩

/-- Directories that pass the other checks have places that are words: where there are any
    at all, there are no more routers than caches. -/
theorem directory_places_lt (hlength : endpoints.length ≤ 2 ^ 32)
    (hdvd : routers ∣ (cachesOf endpoints).length)
    (hle : (directoriesOf endpoints).length ≤ (cachesOf endpoints).length) (directories : Nat) :
    (directoriesOf endpoints).length * (routers / directories) < Word.bound := by
  have hgroups := (groups_perm endpoints).length_eq
  simp only [List.length_append] at hgroups
  by_cases hnone : (cachesOf endpoints).length = 0
  · have hdirectories : (directoriesOf endpoints).length = 0 := by omega
    rw [hdirectories, Nat.zero_mul]
    decide
  · have hrouters : routers ≤ 2 ^ 32 := by
      have := Nat.le_of_dvd (by omega) hdvd
      omega
    calc (directoriesOf endpoints).length * (routers / directories)
        ≤ 2 ^ 31 * 2 ^ 32 :=
          Nat.mul_le_mul (by omega) (Nat.le_trans (Nat.div_le_self routers directories) hrouters)
      _ < Word.bound := by decide

/-- Concentration is governed by its checks wherever directories that pass the others have
    places that are words. -/
theorem concentrate_governed (hpos : 0 < routers)
    (hwords : routers ∣ (cachesOf endpoints).length →
      (directoriesOf endpoints).length ≤ (cachesOf endpoints).length →
      (directoriesOf endpoints).length * (routers / directories) < Word.bound) :
    Governs (shareChecks endpoints routers directories)
      (concentrate endpoints routers directories) := by
  have hstride : 1 ≤ routers / directories ↔ 1 ≤ directories ∧ directories ≤ routers := by
    constructor
    · intro h
      exact (Nat.div_pos_iff.mp h)
    · intro h
      exact Nat.div_pos_iff.mpr h
  refine .step (liftM_eq_ok.mpr (Word.rem_eq_ok (by omega))) ?_
  refine .guard (by simp [Nat.dvd_iff_mod_eq_zero, cachesOf]) fun hdvd => ?_
  refine .guard (decide_eq_true_iff.trans Nat.not_lt.symm) fun hle => ?_
  have hplaces := hwords (of_decide_eq_true hdvd) (of_decide_eq_true hle)
  refine .step (liftM_eq_ok.mpr (directoryStride_ok_iff.mpr rfl)) ?_
  refine .step (liftM_eq_ok.mpr (strideFits_eq_ok hplaces)) ?_
  refine .require ?_ fun _ => ?_
  · rw [decide_eq_true_iff, decide_eq_true_iff, hstride, and_assoc]
    rfl
  refine .step (liftM_eq_ok.mpr (Word.div_eq_ok (by omega))) ?_
  obtain ⟨cachePlaces, hcaches⟩ := exists_cachePlaces (of_decide_eq_true hdvd)
  obtain ⟨directoryPlaces, hdirectories⟩ := exists_directoryPlaces hplaces
  exact .step hcaches (.step hdirectories ⟨_, rfl⟩)

end Interconnect.Placement
