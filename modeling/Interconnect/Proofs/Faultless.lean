import Interconnect.Proofs.Graph
import Interconnect.Proofs.HierarchicalRing.Edges
import Interconnect.Proofs.Outcome
import Interconnect.Proofs.WellFormed

/-! # No fault

    However a request is composed, its synthesis ends with a topology or with one of
    the refusals that its checks make: no step divides by zero, leaves the words, reads
    beyond a list or joins a router to itself. Nor does a topology that was synthesized
    fault when it is asked for its graph, or for the position and the neighbours of a
    router, whose number is its degree; its name, its dot text and its labels are read
    off its fields without any arithmetic. `synthesize_faultless` is the main statement.
-/

namespace Interconnect

/-- A topology that can be numbered, indexed and asked. -/
structure Topology.Faultless (t : Topology) : Prop where
  /-- The next id is a word after every edge. -/
  ids : ∀ e ∈ t.edges, e.id + 2 < Word.bound
  /-- No step fails in building the graph. -/
  graph : t.graph? = some t.graph
  position : ∀ rank < t.routers.length, ∃ p, t.position rank = .ok p
  /-- All neighbours of a router exist. -/
  neighbors : ∀ rank < t.routers.length, t.graph.neighbors? rank = some (t.graph.neighbors rank)

section

variable {c : Configuration} {endpoints : List Endpoint} {t : Topology}
  {placements : List Placement} {wiring : Wiring}

/-- No check refuses a request for a fault. -/
theorem Configuration.refusal_ne_fault (f : Fault) :
    ∀ k ∈ c.checks endpoints, k.refusal ≠ .fault f := by
  rw [checks, List.forall_mem_append]
  constructor
  · unfold gridChecks
    cases c.family <;> simp [Grid.rowChecks, extentChecks, concentrationChecks]
  · have hleftover : ∀ k ∈ Placement.leftoverChecks endpoints c.routers,
        k.refusal ≠ .fault f := by
      intro k hk
      obtain ⟨e, -, rfl⟩ := List.mem_map.mp hk
      simp
    have hshare : ∀ k ∈ Placement.shareChecks endpoints c.routers c.numDirs.toNat,
        k.refusal ≠ .fault f := by
      simp [Placement.shareChecks]
    unfold placementChecks
    cases c.family <;> assumption

/-- A governed synthesis is refused for a check, and never for a fault. -/
theorem synthesize_ne_fault (hendpoints : endpoints.length ≤ 2 ^ 32)
    (hrouters : c.grid.isOk → c.routers ≤ Graph.room)
    (hedges : c.grid.isOk → c.edges ≤ Graph.room) (f : Fault) :
    synthesize c endpoints ≠ .error (.fault f) := by
  intro h
  have hfirst := (synthesize_governed hendpoints hrouters hedges).eq_error_iff.mp h
  obtain ⟨k, hk, hrefusal⟩ := Check.exists_of_firstRefusal? hfirst
  exact Configuration.refusal_ne_fault f k hk hrefusal

namespace Stages

/-- Ids run on from the endpoints, two for each edge. -/
theorem edges_id_add_le (s : Stages c endpoints t placements wiring) {e : InternalLink}
    (he : e ∈ t.edges) : e.id + 2 ≤ endpoints.length + 2 * t.edges.length := by
  obtain ⟨k, hk⟩ := List.mem_iff_getElem?.mp he
  obtain ⟨p, -, hid, -⟩ := s.edges_getElem? hk
  have hlt := (List.getElem?_eq_some_iff.mp hk).1
  rw [s.length_placements] at hid
  omega

theorem faultless (s : Stages c endpoints t placements wiring)
    (hendpoints : endpoints.length ≤ 2 ^ 32) (hrouters : t.routers.length ≤ Graph.room)
    (hedges : t.edges.length ≤ Graph.room) : t.Faultless where
  ids := by
    intro e he
    have hid := s.edges_id_add_le he
    have hbound : 2 ^ 32 + 2 * Graph.room < Word.bound := by decide
    omega
  graph := Topology.graph?_eq_some hrouters hedges fun _ hl => (s.edges_routers hl).2
  position := fun rank _ => ⟨_, s.position_eq rank⟩
  neighbors := fun rank _ => Graph.neighbors?_eq_some
    (Topology.graph_ends hrouters fun _ hl => (s.edges_routers hl).2) rank

end Stages

end

/-! ## Main statement -/

/-- **No fault**: for at most `2 ^ 32` endpoints, and as long as routers and edges can
    have 32-bit indices, a synthesis does not fault, and neither does what is asked of
    its topology. -/
theorem synthesize_faultless {c : Configuration} {endpoints : List Endpoint}
    (hendpoints : endpoints.length ≤ 2 ^ 32) (hrouters : c.grid.isOk → c.routers ≤ Graph.room)
    (hedges : c.grid.isOk → c.edges ≤ Graph.room) :
    (∀ f, synthesize c endpoints ≠ .error (.fault f)) ∧
      ∀ t, synthesize c endpoints = .ok t → t.Faultless := by
  constructor
  · exact synthesize_ne_fault hendpoints hrouters hedges
  · intro t h
    obtain ⟨placements, wiring, s⟩ := synthesize_stages h
    obtain ⟨hnodes, hjoined⟩ := synthesize_room h
    exact s.faultless hendpoints hnodes hjoined

theorem synthesize_faultless_sixByFour :
    (∀ f, synthesize .sixByFour (Endpoint.population 24 0 1) ≠ .error (.fault f)) ∧
      ∃ t, synthesize .sixByFour (Endpoint.population 24 0 1) = .ok t ∧ t.Faultless := by
  have hendpoints : (Endpoint.population 24 0 1).length ≤ 2 ^ 32 := by decide
  have hrouters : Configuration.sixByFour.routers ≤ Graph.room := by decide
  have hedges : Configuration.sixByFour.edges ≤ Graph.room := by decide
  obtain ⟨t, h⟩ := exists_synthesize_sixByFour
  obtain ⟨hfault, hfaultless⟩ := synthesize_faultless hendpoints (fun _ => hrouters)
    fun _ => hedges
  exact ⟨hfault, t, h, hfaultless t h⟩

end Interconnect
