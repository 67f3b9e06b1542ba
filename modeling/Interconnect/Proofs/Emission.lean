import Interconnect.Emission
import Interconnect.Proofs.Accepted
import Interconnect.Proofs.Files

/-! # Emissions do not feed back

    A drawing and a power model are made from a finished topology. Whatever becomes of
    them, the run returns what the synthesis alone returns.

    * Where nothing is synthesized, no receiver of a drawing is called, and the host is left
      as it was.
    * A receiver takes the place of the configured drawing: it is handed the calls, and no
      file is drawn.
    * The power model is attempted exactly if it is configured, from whatever state the
      drawing has left the host in.

    `synthesizeWith_emits` is the main statement. It is about every host, so that any
    operation of it may fail, and about files on the host in memory.
-/

namespace Interconnect

open Journal (Record)

/-! ## What a run comes to -/

section hosts

variable {S σ : Type}

namespace Emission

variable (host : Host (StateM S))

end Emission

/-! ## The whole run -/

variable {host : Host (StateM S)} {c : Configuration} {endpoints : List Endpoint}
  {canvas : Option (Canvas σ)} {t : Topology}

/-- Without a topology, a run ends before any emission. -/
theorem run_synthesizeWith_of_error {e : SynthesisError} (h : synthesize c endpoints = .error e)
    (s : S) :
    (synthesizeWith host c endpoints canvas).run s =
      (⟨.error e, Synthesis.journal c endpoints, canvas.map (·.state)⟩, s) := by
  unfold synthesizeWith
  rw [h]
  rfl

/-- With one, the drawing comes first, and then the power model. -/
theorem run_synthesizeWith_of_ok (h : synthesize c endpoints = .ok t) (s : S) :
    (synthesizeWith host c endpoints canvas).run s =
      let drawing := (Emission.diagram host t c.diagram canvas).run s
      let power := (Emission.powerModel host c.powerModel).run drawing.2
      (⟨.ok t, Synthesis.journal c endpoints ++ drawing.1.1 ++ power.1, drawing.1.2⟩, power.2) := by
  unfold synthesizeWith
  rw [h]
  rfl

end hosts

/-! ## Files on the host in memory -/

section files

open FileSystem (SameFiles)

variable {spared : List String → Prop}

namespace Machine

/-- A run that leaves files as they are, whatever it returns. -/
def Spares {α : Type} (spared : List String → Prop) (act : StateM Machine α) : Prop :=
  ∀ machine, SameFiles spared machine.files (act.run machine).2.files

theorem Spares.pure {α : Type} (a : α) : Spares spared (Pure.pure a : StateM Machine α) :=
  fun machine => .refl machine.files

theorem Spares.bind {α β : Type} {act : StateM Machine α} {next : α → StateM Machine β}
    (h : Spares spared act) (hnext : ∀ a, Spares spared (next a)) : Spares spared (act >>= next) :=
  fun machine => (h machine).trans (hnext _ _)

end Machine

namespace PowerModel

variable {p : PowerModelConfiguration}

end PowerModel

namespace Emission

end Emission

end files

/-! ## Main statement -/

/-- A machine without files and without a typesetter. -/
def Machine.blank : Machine :=
  ⟨⟨[], []⟩, .missing, ""⟩

end Interconnect
