import Interconnect.Drawing
import Interconnect.Proofs.WellFormed

/-! # Drawings, call by call

    A receiver of a drawing is handed one call after the other, and may refuse any of them.
    What it was handed is a matter of what it answered:

    * A receiver that takes every call is handed the whole script: the routers by rank, then
      the edges by id, between a begin and a finish. Nothing is reported.
    * One that refuses a call is handed no other call after it. The drawing is incomplete, and
      one error is reported.

    `synthesize_drawn` is the main statement, over every receiver and every call that it may
    refuse.
-/

namespace Interconnect.Drawing

/-! ## The script -/

/-- What there is to draw of a topology, in order. -/
structure Script (t : Topology) where
  /-- Ranks, and where they are drawn. -/
  nodes : List (Nat × Position)
  edges : List InternalLink
  routers : nodes.map (·.1) = t.routers.map (·.rank)
  byRank : (nodes.map (·.1)).Pairwise (· < ·)
  positions : ∀ n ∈ nodes, t.position n.1 = .ok n.2
  /-- An edge is drawn for every other internal link, beginning with the first. -/
  forward : ∀ k : Nat, edges[k]? = t.links[2 * k]?
  byId : (edges.map (·.id)).Pairwise (· < ·)

/-- The calls that say so. -/
def Script.calls {t : Topology} (script : Script t) : List Call :=
  .begin t.family t.grid ::
    ((script.nodes.map fun n => .node n.1 n.2) ++
      (script.edges.map fun l => .edge l (stroke t.family t.grid l)) ++ [.finish])

/-- There is at least a finish after the begin. -/
theorem Script.exists_calls_eq {t : Topology} (script : Script t) :
    ∃ call rest, script.calls = .begin t.family t.grid :: call :: rest := by
  unfold Script.calls
  obtain ⟨call, rest, hrest⟩ := List.exists_cons_of_ne_nil
    (List.append_ne_nil_of_right_ne_nil ((script.nodes.map fun n => Call.node n.1 n.2) ++
      script.edges.map fun l => .edge l (stroke t.family t.grid l)) (List.cons_ne_nil .finish []))
  exact ⟨call, rest, by rw [hrest]⟩

end Drawing

namespace Stages

variable {c : Configuration} {endpoints : List Endpoint} {t : Topology}
  {placements : List Placement} {wiring : Wiring}

/-- Edges are listed in the order of their ids. -/
theorem edges_byId (s : Stages c endpoints t placements wiring) :
    (t.edges.map (·.id)).Pairwise (· < ·) := by
  rw [List.pairwise_map, List.pairwise_iff_getElem]
  intro i j hi hj hij
  obtain ⟨-, -, hidᵢ, -⟩ := s.edges_getElem? (List.getElem?_eq_getElem hi)
  obtain ⟨-, -, hidⱼ, -⟩ := s.edges_getElem? (List.getElem?_eq_getElem hj)
  omega

/-- What there is to draw of a synthesized topology. -/
def script (s : Stages c endpoints t placements wiring) : Drawing.Script t where
  nodes := t.routers.map fun r => (r.rank, t.family.spot t.grid r.rank)
  edges := t.edges
  routers := by simp
  byRank := by
    rw [List.map_map]
    exact s.ranks_eq ▸ List.pairwise_lt_range
  positions := by
    intro n hn
    obtain ⟨r, -, rfl⟩ := List.mem_map.mp hn
    exact s.position_eq r.rank
  forward := fun k => (t.getElem?_links k).1.symm
  byId := s.edges_byId

theorem calls_script (s : Stages c endpoints t placements wiring) :
    s.script.calls = Drawing.calls t := by
  simp [Drawing.Script.calls, Drawing.calls, script]

end Stages

namespace Drawing

/-! ## Receivers -/

namespace Sink

variable {σ : Type} {sink : Sink σ} {calls : List Call} {s final : σ} {k : Nat} {e : Failure}

/-- The receiver with a list of the calls that it was handed, whether it took them or not. -/
def recording (sink : Sink σ) : Sink (List Call × σ) := fun call (seen, s) =>
  let (answer, s) := (sink call).run s
  (answer, (seen ++ [call], s))

/-- A receiver takes calls one after the other, and gets from one state to another. -/
inductive Takes (sink : Sink σ) : List Call → σ → σ → Prop where
  | nil (s : σ) : Takes sink [] s s
  | cons {call : Call} {rest : List Call} {s s' final : σ} :
      (sink call).run s = (.ok (), s') → Takes sink rest s' final →
        Takes sink (call :: rest) s final

/-- A receiver takes so many calls, and fails on the next one. -/
inductive Refuses (sink : Sink σ) : List Call → Nat → σ → Failure → σ → Prop where
  | here {call : Call} {rest : List Call} {s final : σ} {e : Failure} :
      (sink call).run s = (.error e, final) → Refuses sink (call :: rest) 0 s e final
  | later {call : Call} {rest : List Call} {k : Nat} {s s' final : σ} {e : Failure} :
      (sink call).run s = (.ok (), s') → Refuses sink rest k s' e final →
        Refuses sink (call :: rest) (k + 1) s e final

/-- Whatever a receiver is like, it does one or the other. -/
theorem takes_or_refuses (sink : Sink σ) (calls : List Call) (s : σ) :
    (∃ final, sink.Takes calls s final) ∨ ∃ k e final, sink.Refuses calls k s e final := by
  induction calls generalizing s with
  | nil => exact .inl ⟨s, .nil s⟩
  | cons call rest ih =>
    rcases hrun : (sink call).run s with ⟨answer, s'⟩
    cases answer with
    | error e => exact .inr ⟨0, e, s', .here hrun⟩
    | ok _ =>
      rcases ih s' with ⟨final, htakes⟩ | ⟨k, e, final, hrefuses⟩
      · exact .inl ⟨final, .cons hrun htakes⟩
      · exact .inr ⟨k + 1, e, final, .later hrun hrefuses⟩

theorem Takes.append {first rest : List Call} {s' : σ} (h : sink.Takes first s s')
    (hrest : sink.Takes rest s' final) : sink.Takes (first ++ rest) s final := by
  induction h with
  | nil => exact hrest
  | cons hrun _ ih => exact .cons hrun (ih hrest)

theorem run_recording {call : Call} {answer : Except Failure Unit} {s' : σ}
    (h : (sink call).run s = (answer, s')) (seen : List Call) :
    (sink.recording call).run (seen, s) = (answer, (seen ++ [call], s')) := by
  simp only [ExceptT.run] at h
  simp [recording, ExceptT.run, h]

theorem Takes.recording (h : sink.Takes calls s final) (seen : List Call) :
    sink.recording.Takes calls (seen, s) (seen ++ calls, final) := by
  induction h generalizing seen with
  | nil s => simpa using @Takes.nil _ sink.recording (seen, s)
  | @cons call rest s s' final hrun _ ih =>
    simpa using Takes.cons (run_recording hrun seen) (ih (seen ++ [call]))

theorem Refuses.recording (h : sink.Refuses calls k s e final) (seen : List Call) :
    sink.recording.Refuses calls k (seen, s) e (seen ++ calls.take (k + 1), final) := by
  induction h generalizing seen with
  | @here call rest s final e hrun =>
    -- the call that failed is on the list, too
    simpa using @Refuses.here _ _ _ rest _ _ _ (run_recording hrun seen)
  | @later call rest k s s' final e hrun _ ih =>
    simpa using Refuses.later (run_recording hrun seen) (ih (seen ++ [call]))

end Sink

/-! ## Drawing -/

section drawing

variable {σ α β : Type} {sink : Sink σ} {start final s s' : σ} {k : Nat} {e : Failure}
  {act : ExceptT Failure (StateM σ) α} {next : α → ExceptT Failure (StateM σ) β}

/-- A run goes on from where its first step left the state, -/
theorem run_bind_of_ok {a : α} (h : act.run s = (.ok a, s')) :
    (act >>= next).run s = (next a).run s' := by
  show StateT.bind act.run (ExceptT.bindCont next) s = _
  simp only [StateT.bind, h]
  rfl

/-- unless that step failed. -/
theorem run_bind_of_error (h : act.run s = (.error e, s')) :
    (act >>= next).run s = (.error e, s') := by
  show StateT.bind act.run (ExceptT.bindCont next) s = _
  simp only [StateT.bind, h]
  rfl

theorem run_feed_of_takes {calls : List Call} (h : sink.Takes calls start final) :
    (feed sink calls).run start = (.ok (), final) := by
  induction h with
  | nil s => rfl
  | cons hrun _ ih => rw [feed, run_bind_of_ok hrun, ih]

theorem run_feed_of_refuses {calls : List Call} (h : sink.Refuses calls k start e final) :
    (feed sink calls).run start = (.error e, final) := by
  induction h with
  | here hrun => rw [feed, run_bind_of_error hrun]
  | later hrun _ ih => rw [feed, run_bind_of_ok hrun, ih]

variable {t : Topology}

theorem draw_of_takes (h : sink.Takes (calls t) start final) :
    draw sink t start = ⟨true, [], final⟩ := by
  simp [draw, run_feed_of_takes h]

theorem draw_of_refuses (h : sink.Refuses (calls t) k start e final) :
    draw sink t start =
      ⟨false, [⟨.error, s!"drawing {t.name} failed with error {e.describe}"⟩], final⟩ := by
  simp [draw, run_feed_of_refuses h]

/-- What a drawing comes to, for one receiver that starts in one state. -/
structure Drawn (sink : Sink σ) (t : Topology) (start : σ) (calls : List Call) : Prop where
  /-- A receiver that takes all calls was handed all of them, in order. -/
  taken : ∀ final, sink.Takes calls start final →
    draw sink.recording t ([], start) = ⟨true, [], (calls, final)⟩
  /-- One that takes `k` calls and fails on the next was handed `k + 1`; the failure is the
      only one on record. -/
  refused : ∀ k e final, sink.Refuses calls k start e final →
    draw sink.recording t ([], start) =
      ⟨false, [⟨.error, s!"drawing {t.name} failed with error {e.describe}"⟩],
        (calls.take (k + 1), final)⟩
  /-- There are no other ends. -/
  ends : (∃ final, sink.Takes calls start final) ∨
    ∃ k e final, sink.Refuses calls k start e final
  /-- It makes no difference to a receiver that its calls are recorded. -/
  unrecorded : draw sink t start =
    ⟨(draw sink.recording t ([], start)).complete, (draw sink.recording t ([], start)).records,
      (draw sink.recording t ([], start)).final.2⟩

theorem drawn (sink : Sink σ) (t : Topology) (start : σ) : Drawn sink t start (calls t) where
  taken := fun final h => by simpa using draw_of_takes (h.recording [])
  refused := fun k e final h => by simpa using draw_of_refuses (h.recording [])
  ends := sink.takes_or_refuses (calls t) start
  unrecorded := by
    rcases sink.takes_or_refuses (calls t) start with ⟨final, h⟩ | ⟨k, e, final, h⟩
    · rw [draw_of_takes h, draw_of_takes (h.recording [])]
    · rw [draw_of_refuses h, draw_of_refuses (h.recording [])]

end drawing

end Drawing

/-! ## Main statement -/

/-- **Drawings** follow their script to its end, or to the first call that is refused, which
    is reported once. -/
theorem synthesize_drawn {c : Configuration} {endpoints : List Endpoint} {t : Topology}
    (h : synthesize c endpoints = .ok t) {σ : Type} (sink : Drawing.Sink σ) (start : σ) :
    ∃ script : Drawing.Script t, Drawing.Drawn sink t start script.calls := by
  obtain ⟨placements, wiring, s⟩ := synthesize_stages h
  refine ⟨s.script, ?_⟩
  rw [s.calls_script]
  exact Drawing.drawn sink t start

/-- A receiver with ink for one call. -/
def Drawing.Sink.stalling : Drawing.Sink Bool := fun _ => do
  if ← get then throw ⟨"out of ink"⟩
  set true

/-- It is handed the first router as well, and nothing after it. -/
theorem synthesize_drawn_sixByFour :
    ∃ (t : Topology) (script : Drawing.Script t),
      synthesize .sixByFour (Endpoint.population 24 0 1) = .ok t ∧
      (Drawing.draw Drawing.Sink.stalling.recording t ([], false)).complete = false ∧
      (Drawing.draw Drawing.Sink.stalling.recording t ([], false)).final.1 =
        script.calls.take 2 := by
  obtain ⟨t, h⟩ := exists_synthesize_sixByFour
  obtain ⟨script, hdrawn⟩ := synthesize_drawn h Drawing.Sink.stalling false
  have hrefuses : Drawing.Sink.stalling.Refuses script.calls 1 false ⟨"out of ink"⟩ true := by
    obtain ⟨call, rest, hcalls⟩ := script.exists_calls_eq
    rw [hcalls]
    exact .later rfl (.here rfl)
  have hend := hdrawn.refused 1 _ _ hrefuses
  exact ⟨t, script, h, by rw [hend], by rw [hend]⟩

end Interconnect
