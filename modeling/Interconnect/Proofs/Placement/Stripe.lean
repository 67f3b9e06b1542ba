import Interconnect.Proofs.Placement.Outcome
import Mathlib.Data.List.Nodup

/-! # Dealing endpoints out

    Dealt out, the endpoints keep their order, and their routers are full rounds over all
    routers in turn, followed by router 0 for whatever is left over. What each router gets is
    read off this list of routers (`routers_of_stripe`).

    `stripe_deals` is the main statement: when the endpoints can be dealt out, for which of
    them they cannot, and what every router gets.
-/

namespace Interconnect.Placement

variable {endpoints : List Endpoint} {routers : Nat} {places : List Placement}

/-! ## Rounds -/

/-- The routers in turn, over and over. -/
def rounds (count routers : Nat) : List Nat :=
  (List.replicate count (List.range routers)).flatten

theorem rounds_succ (count routers : Nat) :
    rounds (count + 1) routers = List.range routers ++ rounds count routers := by
  rw [rounds, List.replicate_succ, List.flatten_cons, rounds]

/-- Counting on and taking the remainder goes round. -/
theorem map_mod_range (count routers : Nat) :
    (List.range (count * routers)).map (· % routers) = rounds count routers := by
  induction count with
  | zero => simp [rounds]
  | succ count ih =>
    have hfirst : (List.range routers).map (· % routers) = List.range routers := by
      conv_rhs => rw [← List.map_id (List.range routers)]
      apply List.map_congr_left
      intro i hi
      exact Nat.mod_eq_of_lt (List.mem_range.mp hi)
    -- the numbers of the later rounds are those of the earlier ones, one round on
    rw [Nat.succ_mul, Nat.add_comm, List.range_add, List.map_append, hfirst, List.map_map,
      rounds_succ, ← ih]
    congr 1
    apply List.map_congr_left
    intro i _
    exact Nat.add_mod_left routers i

/-- Every router has its turn once in each round. -/
theorem count_rounds {r : Nat} (hr : r < routers) (count : Nat) :
    (rounds count routers).count r = count := by
  induction count with
  | zero => rfl
  | succ count ih =>
    have honce : (List.range routers).count r = 1 :=
      List.count_eq_one_of_mem List.nodup_range (List.mem_range.mpr hr)
    rw [rounds_succ, List.count_append, honce, ih, Nat.add_comm]

/-- Each round is the routers in turn, whatever follows. -/
theorem take_drop_rounds {k count : Nat} (hk : k < count) (rest : List Nat) :
    ((rounds count routers ++ rest).drop (k * routers)).take routers = List.range routers := by
  induction count generalizing k with
  | zero => omega
  | succ count ih =>
    rw [rounds_succ, List.append_assoc]
    cases k with
    | zero => simp
    | succ k =>
      have hone : (k + 1) * routers = (List.range routers).length + k * routers := by
        rw [List.length_range, Nat.succ_mul, Nat.add_comm]
      rw [hone, ← List.drop_drop, List.drop_left]
      exact ih (by omega)

/-! ## Dealt endpoints -/

/-- The endpoints in the last positions, as many as do not fill a round. -/
def leftover (endpoints : List Endpoint) (routers : Nat) : List Endpoint :=
  endpoints.drop (endpoints.length - endpoints.length % routers)

theorem leftover_eq (endpoints : List Endpoint) (routers : Nat) :
    leftover endpoints routers = endpoints.drop (endpoints.length / routers * routers) := by
  have hsplit := Nat.div_add_mod' endpoints.length routers
  rw [leftover]
  congr 1
  omega

/-- The routers are full rounds, and router 0 for what is left over. -/
theorem routers_of_stripe (h : stripe endpoints routers = .ok places) :
    places.map (·.router) = rounds (endpoints.length / routers) routers ++
      List.replicate (endpoints.length % routers) 0 := by
  obtain ⟨-, rfl⟩ := stripe_cases h
  have hsplit := Nat.div_add_mod' endpoints.length routers
  rw [map_router_placeEach]
  conv_lhs => rw [← hsplit]
  rw [List.range_add, List.map_append, ← map_mod_range, List.map_map]
  congr 1
  · apply List.map_congr_left
    intro i hi
    rw [Nat.div_add_mod', if_pos (List.mem_range.mp hi)]
  · rw [List.eq_replicate_iff]
    refine ⟨by rw [List.length_map, List.length_range], ?_⟩
    intro r hr
    obtain ⟨i, -, rfl⟩ := List.mem_map.mp hr
    rw [Function.comp_apply, Nat.div_add_mod', if_neg (by omega)]

/-- Endpoints that were dealt out to routers. -/
structure Dealt (endpoints : List Endpoint) (routers : Nat) (places : List Placement) : Prop where
  order : places.map (·.endpoint) = endpoints
  /-- Every router but the first gets one endpoint for each round. -/
  load : ∀ r, 0 < r → r < routers →
    places.countP (·.router = r) = endpoints.length / routers
  /-- The first router gets what is left over, too. -/
  load_zero : places.countP (·.router = 0) =
    endpoints.length / routers + endpoints.length % routers
  /-- A round of consecutive endpoints goes to all routers in turn. -/
  round : ∀ k < endpoints.length / routers,
    ((places.drop (k * routers)).take routers).map (·.router) = List.range routers
  router_lt : ∀ p ∈ places, p.router < routers

theorem countP_router (places : List Placement) (r : Nat) :
    places.countP (·.router = r) = (places.map (·.router)).count r := by
  rw [List.count, List.countP_map]
  rfl

theorem dealt_of_place (h : Rule.stripe.place endpoints routers = .ok places) :
    Dealt endpoints routers places := by
  have hpos := Rule.routers_pos_of_place h
  have hstripe : stripe endpoints routers = .ok places := (ite_error_eq_ok.mp h).2
  have hrouters := routers_of_stripe hstripe
  exact {
    order := by
      obtain ⟨-, rfl⟩ := stripe_cases hstripe
      exact map_endpoint_placeEach _ endpoints
    load := by
      intro r hr hlt
      rw [countP_router, hrouters, List.count_append, count_rounds hlt, List.count_replicate,
        if_neg (by simpa using Nat.ne_of_lt hr), Nat.add_zero]
    load_zero := by
      rw [countP_router, hrouters, List.count_append, count_rounds hpos, List.count_replicate_self]
    round := by
      intro k hk
      rw [List.map_take, List.map_drop, hrouters]
      exact take_drop_rounds hk _
    router_lt := Rule.router_lt_of_place h }

/-- The first endpoint left over that is no DMA engine is the one that is refused. -/
theorem firstRefusal?_leftoverChecks {error : SynthesisError} :
    Check.firstRefusal? (leftoverChecks endpoints routers) = some error ↔
      ∃ before e after, leftover endpoints routers = before ++ e :: after ∧
        (∀ d ∈ before, d.kind = .dma) ∧ e.kind ≠ .dma ∧
        error = .unexpectedLeftover e.id e.kind := by
  rw [leftoverChecks, ← leftover_eq, Check.firstRefusal?_map, Option.map_eq_some_iff]
  constructor
  · intro h
    obtain ⟨e, he, rfl⟩ := h
    obtain ⟨hkind, before, after, hsplit, hbefore⟩ := List.find?_eq_some_iff_append.mp he
    exact ⟨before, e, after, hsplit, by simpa using hbefore, by simpa using hkind, rfl⟩
  · intro h
    obtain ⟨before, e, after, hsplit, hbefore, hkind, rfl⟩ := h
    refine ⟨e, List.find?_eq_some_iff_append.mpr ⟨?_, before, after, hsplit, ?_⟩, rfl⟩
    · simpa using hkind
    · simpa using hbefore

/-! ## Main statement -/

/-- **Dealing out** endpoints, as many as a word can count, succeeds exactly if all those left
    over are DMA engines, and is refused for the first that is none. Every router gets one
    endpoint for each round, and router 0 what is left over. -/
theorem stripe_deals {endpoints : List Endpoint} {routers : Nat} (hrouters : 0 < routers)
    (hlength : endpoints.length < Word.bound) :
    ((∃ places, Rule.stripe.place endpoints routers = .ok places) ↔
        ∀ e ∈ leftover endpoints routers, e.kind = .dma) ∧
      (∀ error, Rule.stripe.place endpoints routers = .error error ↔
        ∃ before e after, leftover endpoints routers = before ++ e :: after ∧
          (∀ d ∈ before, d.kind = .dma) ∧ e.kind ≠ .dma ∧
          error = .unexpectedLeftover e.id e.kind) ∧
      ∀ places, Rule.stripe.place endpoints routers = .ok places →
        Dealt endpoints routers places := by
  have hplace : Rule.stripe.place endpoints routers = stripe endpoints routers :=
    if_neg (by omega)
  have hgoverned := stripe_governed hrouters hlength
  refine ⟨?_, ?_, fun places h => dealt_of_place h⟩
  · rw [hplace, hgoverned.exists_ok_iff, leftoverChecks, ← leftover_eq]
    simp
  · intro error
    rw [hplace, hgoverned.eq_error_iff, firstRefusal?_leftoverChecks]

/-- Two rounds over four routers leave one endpoint over: it goes to router 0 as a DMA
    engine, and is refused as a cache. -/
theorem stripe_deals_nine :
    (∃ places, Rule.stripe.place (Endpoint.population 4 4 1) 4 = .ok places ∧
      Dealt (Endpoint.population 4 4 1) 4 places) ∧
    Rule.stripe.place (Endpoint.population 9 0 0) 4 =
      .error (.unexpectedLeftover 8 .l1Cache) := by
  have hnine : (Endpoint.population 4 4 1).length < Word.bound := by decide
  have hcaches : (Endpoint.population 9 0 0).length < Word.bound := by decide
  have hfour : 0 < 4 := by decide
  obtain ⟨hok, -, hdealt⟩ := stripe_deals hfour hnine
  obtain ⟨-, herror, -⟩ := stripe_deals hfour hcaches
  obtain ⟨places, hplaces⟩ := hok.mpr (by decide)
  exact ⟨⟨places, hplaces, hdealt places hplaces⟩,
    (herror _).mpr ⟨[], ⟨8, .l1Cache⟩, [], by decide, by simp, by decide, rfl⟩⟩

end Interconnect.Placement
