import Interconnect.Proofs.Escape.Cycle
import Std.Data.HashMap.Lemmas

/-! # What a plan looks up

    The numbers of a plan, read off its list of cycles: an edge has its position
    on the last cycle that runs over it (`edgeRanks_ofCycles`), and a router its
    position on the last cycle of the escape channel that visits it
    (`routerRanks_ofCycles`).
-/

namespace Interconnect.Escape

/-! ## Numbering a list -/

section numbering

variable {α κ β : Type} [BEq κ] [Hashable κ] [LawfulBEq κ] [LawfulHashable κ]

/-- Entries with distinct keys, inserted with their positions: a key of the list
    is found with its position, any other one as before. -/
theorem getElem?_foldl_insert (key : α → κ) (value : Nat → β) {xs : List α}
    (hnodup : (xs.map key).Nodup) (start : Nat) (ranks : Std.HashMap κ β) (k : κ) :
    ((xs.zipIdx start).foldl (fun ranks x => ranks.insert (key x.1) (value x.2)) ranks)[k]? =
      (((xs.map key).findIdx? (· == k)).map fun i => value (start + i)).or ranks[k]? := by
  induction xs generalizing start ranks with
  | nil => simp
  | cons x xs ih =>
    obtain ⟨hx, hxs⟩ := List.nodup_cons.mp hnodup
    rw [List.zipIdx_cons, List.foldl_cons, ih hxs, List.map_cons, List.findIdx?_cons]
    by_cases heq : key x = k
    · -- later entries leave the number of `x` alone
      have hnone : (xs.map key).findIdx? (· == k) = none := by
        rw [List.findIdx?_eq_none_iff]
        intro y hy
        exact beq_false_of_ne fun hyk => hx (heq ▸ hyk ▸ hy)
      simp [hnone, heq]
    · have hshift : (fun i => value (start + 1 + i)) = fun i => value (start + (i + 1)) := by
        funext i
        rw [Nat.add_assoc, Nat.add_comm 1 i]
      simp [heq, Std.HashMap.getElem?_insert, Option.map_map, Function.comp_def, hshift]

end numbering

/-! ## Ranks of one cycle -/

namespace Cycle

/-- The rank that a cycle gives to an edge. -/
def rank? (c : Cycle) (key : Nat × Nat) : Option Rank :=
  (c.edgeOrdinal? key).map fun i => ⟨c.role, i⟩

/-- The number that a cycle gives to a router: none off the escape channel. -/
def routerNumber? (c : Cycle) (router : Nat) : Option Nat :=
  if c.role.isEscapeChannel then c.ordinal? router else none

variable {c : Cycle} {key : Nat × Nat}

theorem rank?_eq_some_iff {rank : Rank} :
    c.rank? key = some rank ↔ rank.role = c.role ∧ c.keys[rank.ordinal]? = some key := by
  simp only [rank?, Option.map_eq_some_iff, edgeOrdinal?_eq_some_iff]
  constructor
  · intro h
    obtain ⟨i, hi, rfl⟩ := h
    exact ⟨rfl, hi⟩
  · intro h
    obtain ⟨hrole, hkey⟩ := h
    exact ⟨rank.ordinal, hkey, by rw [← hrole]⟩

theorem rank?_eq_none_iff : c.rank? key = none ↔ key ∉ c.keys := by
  rw [rank?, Option.map_eq_none_iff, edgeOrdinal?_eq_none_iff]

end Cycle

/-! ## Policies -/

namespace RankPolicy

/-- What a policy makes of the rank of a link that leaves a router. -/
def rankFrom (policy : RankPolicy) (source : Nat) (rank : Rank) : Rank :=
  match policy with
  | .segmentOrdinal => rank
  | .routerRank => { rank with ordinal := source }

/-- What a policy makes of the number of a router. -/
def numberOf (policy : RankPolicy) (router ordinal : Nat) : Nat :=
  match policy with
  | .segmentOrdinal => ordinal
  | .routerRank => router

@[simp] theorem numberOf_segmentOrdinal (router : Nat) :
    segmentOrdinal.numberOf router = id := rfl

@[simp] theorem numberOf_self (policy : RankPolicy) (router : Nat) :
    policy.numberOf router router = router := by
  cases policy <;> rfl

/-- A link that leaves a router at the position of its rank has this number by either policy. -/
@[simp] theorem rankFrom_self (policy : RankPolicy) (source : Nat) (role : Role) :
    policy.rankFrom source ⟨role, source⟩ = ⟨role, source⟩ := by
  cases policy <;> rfl

@[simp] theorem rankFrom_role (policy : RankPolicy) (source : Nat) (rank : Rank) :
    (policy.rankFrom source rank).role = rank.role := by
  cases policy <;> rfl

end RankPolicy

/-! ## Ranks of a plan -/

namespace Plan

variable {p : Plan} {c : Cycle} {cycles : List Cycle} {policy : RankPolicy}

theorem getElem?_rankEdges (ranks : Std.HashMap (Nat × Nat) Rank) (c : Cycle) (key : Nat × Nat) :
    (rankEdges ranks c)[key]? = (c.rank? key).or ranks[key]? := by
  have hnodup : (c.edges.map fun e => edgeKey e.1 e.2).Nodup := c.nodup_keys
  have h := getElem?_foldl_insert _ (fun i => (⟨c.role, i⟩ : Rank)) hnodup 0 ranks key
  simp only [Nat.zero_add] at h
  exact h

theorem getElem?_rankRouters (ranks : Std.HashMap Nat Nat) (c : Cycle) (router : Nat) :
    (rankRouters ranks c)[router]? = (c.ordinal? router).or ranks[router]? := by
  have hnodup : (c.routers.map id).Nodup := by
    rw [List.map_id]
    exact c.nodup
  have h := getElem?_foldl_insert id id hnodup 0 ranks router
  simp only [Nat.zero_add, List.map_id, id, Option.map_id'] at h
  exact h

theorem getElem?_add_routerRanks (p : Plan) (c : Cycle) (router : Nat) :
    (p.add c).routerRanks[router]? = (c.routerNumber? router).or p.routerRanks[router]? := by
  unfold add Cycle.routerNumber?
  dsimp only
  split
  · exact getElem?_rankRouters p.routerRanks c router
  · rfl

/-- The last cycle added that runs over an edge numbers it. -/
theorem edgeRanks_foldl (p : Plan) (cycles : List Cycle) (key : Nat × Nat) :
    (cycles.foldl add p).edgeRanks[key]? =
      (cycles.reverse.findSome? fun c => c.rank? key).or p.edgeRanks[key]? := by
  -- what later cycles leave unranked is looked up in the plan with `c` added
  induction cycles generalizing p with
  | nil => rfl
  | cons c cycles ih =>
    have hadd : (p.add c).edgeRanks[key]? = (c.rank? key).or p.edgeRanks[key]? :=
      getElem?_rankEdges p.edgeRanks c key
    rw [List.foldl_cons, ih, hadd, List.reverse_cons, List.findSome?_append,
      List.findSome?_singleton, Option.or_assoc]

/-- The last cycle of the escape channel that visits a router numbers it. -/
theorem routerRanks_foldl (p : Plan) (cycles : List Cycle) (router : Nat) :
    (cycles.foldl add p).routerRanks[router]? =
      (cycles.reverse.findSome? fun c => c.routerNumber? router).or p.routerRanks[router]? := by
  induction cycles generalizing p with
  | nil => rfl
  | cons c cycles ih =>
    rw [List.foldl_cons, ih, getElem?_add_routerRanks, List.reverse_cons, List.findSome?_append,
      List.findSome?_singleton, Option.or_assoc]

theorem edgeRanks_ofCycles (key : Nat × Nat) :
    (ofCycles policy cycles).edgeRanks[key]? =
      cycles.reverse.findSome? fun c => c.rank? key := by
  rw [ofCycles, edgeRanks_foldl]
  simp [empty]

theorem routerRanks_ofCycles (router : Nat) :
    (ofCycles policy cycles).routerRanks[router]? =
      cycles.reverse.findSome? fun c => c.routerNumber? router := by
  rw [ofCycles, routerRanks_foldl]
  simp [empty]

theorem foldl_add_policy (p : Plan) (cycles : List Cycle) :
    (cycles.foldl add p).policy = p.policy := by
  induction cycles generalizing p with
  | nil => rfl
  | cons c cycles ih => rw [List.foldl_cons, ih, add]

theorem foldl_add_cycles (p : Plan) (cycles : List Cycle) :
    (cycles.foldl add p).cycles = p.cycles ++ cycles := by
  induction cycles generalizing p with
  | nil => rw [List.foldl_nil, List.append_nil]
  | cons c cycles ih => rw [List.foldl_cons, ih, add, List.append_assoc, List.singleton_append]

@[simp] theorem ofCycles_policy : (ofCycles policy cycles).policy = policy :=
  foldl_add_policy _ _

@[simp] theorem ofCycles_cycles : (ofCycles policy cycles).cycles = cycles := by
  rw [ofCycles, foldl_add_cycles]
  rfl

theorem edgeRank?_ofCycles (a b : Nat) :
    (ofCycles policy cycles).edgeRank? a b =
      (cycles.reverse.findSome? fun c => c.rank? (edgeKey a b)).map (policy.rankFrom a) := by
  rw [edgeRank?, edgeRanks_ofCycles, ofCycles_policy]
  rfl

theorem routerRank?_ofCycles (router : Nat) :
    (ofCycles policy cycles).routerRank? router =
      (cycles.reverse.findSome? fun c => c.routerNumber? router).map (policy.numberOf router) := by
  rw [routerRank?, routerRanks_ofCycles, ofCycles_policy]
  rfl

/-- Asked in the other direction, a plan gives the same rank as its policy makes it
    for the other router. -/
theorem edgeRank?_swap (p : Plan) (a b : Nat) :
    p.edgeRank? b a = (p.edgeRank? a b).map (p.policy.rankFrom b) := by
  unfold edgeRank?
  rw [edgeKey_comm b a, Option.map_map]
  cases p.policy with
  | segmentOrdinal => rfl
  | routerRank => rfl

/-- By sources, the number of a rank is the router that the link leaves. -/
theorem ordinal_of_routerRank (hpolicy : p.policy = .routerRank) {a b : Nat} {rank : Rank}
    (h : p.edgeRank? a b = some rank) : rank.ordinal = a := by
  unfold edgeRank? at h
  rw [hpolicy, Option.map_eq_some_iff] at h
  obtain ⟨found, -, rfl⟩ := h
  rfl

/-- Where no role occurs twice, every cycle is found by its role. -/
theorem cycle?_eq_some_iff (hroles : (p.cycles.map (·.role)).Nodup) {role : Role} :
    p.cycle? role = some c ↔ c ∈ p.cycles ∧ c.role = role := by
  unfold cycle?
  constructor
  · intro h
    have hrole : c.role = role := by simpa using List.find?_some h
    exact ⟨List.mem_of_find?_eq_some h, hrole⟩
  · intro h
    obtain ⟨hc, rfl⟩ := h
    have hfound : (p.cycles.find? fun x => x.role = c.role).isSome := by
      rw [List.find?_isSome]
      exact ⟨c, hc, by simp⟩
    obtain ⟨x, hx⟩ := Option.isSome_iff_exists.mp hfound
    have hrole : x.role = c.role := by simpa using List.find?_some hx
    rw [hx, List.inj_on_of_nodup_map hroles (List.mem_of_find?_eq_some hx) hc hrole]

/-! ## The cycle added last -/

/-- A rank that a cycle gives to an edge under a policy. -/
structure Ranks (policy : RankPolicy) (c : Cycle) (key : Nat × Nat) (rank : Rank) : Prop where
  role : rank.role = c.role
  mem : key ∈ c.keys
  ordinal : policy = .segmentOrdinal → c.keys[rank.ordinal]? = some key

/-- What a policy makes of the position of an edge is a rank that the cycle gives. -/
theorem ranks_of_rank? {key : Nat × Nat} {rank : Rank} (h : c.rank? key = some rank) (a : Nat) :
    Ranks policy c key (policy.rankFrom a rank) := by
  obtain ⟨hrole, hkey⟩ := Cycle.rank?_eq_some_iff.mp h
  cases policy with
  | segmentOrdinal => exact ⟨hrole, List.mem_of_getElem? hkey, fun _ => hkey⟩
  | routerRank => exact ⟨hrole, List.mem_of_getElem? hkey, fun hpolicy => by cases hpolicy⟩

section last

variable {others : List Cycle} {last : Cycle} {a b : Nat}

/-- The cycle added last ranks its edges. -/
theorem edgeRank?_of_mem (h : edgeKey a b ∈ last.keys) :
    ∃ rank, (ofCycles policy (others ++ [last])).edgeRank? a b = some rank ∧
      Ranks policy last (edgeKey a b) rank := by
  cases hlast : last.rank? (edgeKey a b) with
  | none => exact absurd h (Cycle.rank?_eq_none_iff.mp hlast)
  | some rank =>
    refine ⟨_, ?_, ranks_of_rank? hlast a⟩
    rw [edgeRank?_ofCycles, List.reverse_append, List.reverse_singleton, List.singleton_append,
      List.findSome?_cons, hlast]
    rfl

/-- The cycle added last gives its edges what a policy makes of their positions on it. -/
theorem edgeRank?_of_getElem? {i : Nat} (h : last.keys[i]? = some (edgeKey a b)) :
    (ofCycles policy (others ++ [last])).edgeRank? a b =
      some (policy.rankFrom a ⟨last.role, i⟩) := by
  have hlast : last.rank? (edgeKey a b) = some ⟨last.role, i⟩ := by
    rw [Cycle.rank?, Cycle.edgeOrdinal?_eq_some_iff.mpr h, Option.map_some]
  rw [edgeRank?_ofCycles, List.reverse_append, List.reverse_singleton, List.singleton_append,
    List.findSome?_cons, hlast]
  rfl

/-- A rank comes from one of the cycles. -/
theorem exists_ranks {cycles : List Cycle} {rank : Rank}
    (hrank : (ofCycles policy cycles).edgeRank? a b = some rank) :
    ∃ c ∈ cycles, Ranks policy c (edgeKey a b) rank := by
  rw [edgeRank?_ofCycles, Option.map_eq_some_iff] at hrank
  obtain ⟨found, hfound, rfl⟩ := hrank
  obtain ⟨c, hc, hcycle⟩ := List.exists_of_findSome?_eq_some hfound
  exact ⟨c, List.mem_reverse.mp hc, ranks_of_rank? hcycle a⟩

/-- An edge that the cycle added last does not run over keeps the rank that an
    earlier cycle gave it. -/
theorem edgeRank?_of_not_mem (h : edgeKey a b ∉ last.keys) {rank : Rank}
    (hrank : (ofCycles policy (others ++ [last])).edgeRank? a b = some rank) :
    ∃ c ∈ others, Ranks policy c (edgeKey a b) rank := by
  obtain ⟨c, hc, hranks⟩ := exists_ranks hrank
  rcases List.mem_append.mp hc with hother | hlast
  · exact ⟨c, hother, hranks⟩
  · rw [List.mem_singleton.mp hlast] at hranks
    exact absurd hranks.mem h

/-- An edge of one of the cycles has a rank. -/
theorem exists_edgeRank? {cycles : List Cycle} (h : ∃ c ∈ cycles, edgeKey a b ∈ c.keys) :
    ∃ rank, (ofCycles policy cycles).edgeRank? a b = some rank := by
  obtain ⟨c, hc, hkey⟩ := h
  rw [edgeRank?_ofCycles]
  cases hfound : cycles.reverse.findSome? fun c => c.rank? (edgeKey a b) with
  | none =>
    have hnone := List.findSome?_eq_none_iff.mp hfound c (List.mem_reverse.mpr hc)
    exact absurd hkey (Cycle.rank?_eq_none_iff.mp hnone)
  | some rank => exact ⟨_, rfl⟩

/-- If only the cycle added last is on the escape channel, it numbers the routers. -/
theorem routerRank?_of_last (hothers : ∀ c ∈ others, c.role.isEscapeChannel = false)
    (hlast : last.role.isEscapeChannel = true) (router : Nat) :
    (ofCycles policy (others ++ [last])).routerRank? router =
      (last.ordinal? router).map (policy.numberOf router) := by
  -- cycles off the channel number no router
  have hnone : (others.reverse.findSome? fun c => c.routerNumber? router) = none := by
    rw [List.findSome?_eq_none_iff]
    intro c hc
    rw [Cycle.routerNumber?, hothers c (List.mem_reverse.mp hc)]
    rfl
  rw [routerRank?_ofCycles, List.reverse_append, List.reverse_singleton, List.singleton_append,
    List.findSome?_cons, hnone, Cycle.routerNumber?, if_pos hlast]
  cases last.ordinal? router with
  | none => rfl
  | some i => rfl

end last

end Plan

end Interconnect.Escape
