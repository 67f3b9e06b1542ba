import Interconnect.Word
import Interconnect.Endpoint

/-! # Reasons to refuse a synthesis

    Each sizing or placement that cannot be built is refused with one cause.
    A `Fault` of the arithmetic is a cause too, kept apart from the refusals
    that the checks make on purpose.
-/

namespace Interconnect

/-- Why no topology was built. -/
inductive SynthesisError where
  | noRouters
  | invalidRowCount (rows routers : Nat)
  | unevenGrid (rows routers : Nat)
  | concentrationMismatch (cpus concentration : Nat)
  | unevenCaches (caches routers : Nat)
  | tooManyDirectories (directories caches : Nat)
  | invalidDirectoryStride (directories routers : Nat)
  | unexpectedLeftover (endpoint : Nat) (kind : Endpoint.Kind)
  | oddRouterCount (routers : Nat)
  | ringTooSmall (routers : Nat)
  | oddGrid (rows cols : Nat)
  | gridTooSmall (rows cols : Nat)
  | duplicateRouter (router : Nat)
  | fault (fault : Fault)
  deriving DecidableEq, Repr, Inhabited

namespace SynthesisError

/-- The text shown for the cause. -/
def message : SynthesisError → String
  | noRouters => "ERROR: topology has no routers"
  | invalidRowCount rows routers => s!"ERROR: {rows} rows is not valid for {routers} routers"
  | unevenGrid rows routers => s!"ERROR: {routers} routers do not divide evenly into {rows} rows"
  | concentrationMismatch cpus concentration =>
    s!"ERROR: {cpus} cpus cannot be concentrated by a factor of {concentration}"
  | unevenCaches caches routers =>
    s!"ERROR: {caches} caches are not a multiple of {routers} routers"
  | tooManyDirectories directories caches =>
    s!"ERROR: {directories} directories exceed {caches} caches"
  | invalidDirectoryStride directories routers =>
    s!"ERROR: {directories} directories cannot be strided over {routers} routers"
  | unexpectedLeftover endpoint kind =>
    s!"ERROR: leftover endpoint {endpoint} is {kind.name}, only DMA may be left over"
  | oddRouterCount routers => s!"OddRouterCount({routers})"
  | ringTooSmall routers => s!"RingTooSmall({routers})"
  | oddGrid rows cols =>
    s!"ERROR: a {rows}x{cols} grid needs an even number of rows and columns"
  | gridTooSmall rows cols => s!"ERROR: a {rows}x{cols} grid is smaller than 4x4"
  | duplicateRouter router => s!"DuplicateSegmentRouter({router})"
  | fault f => f.message

end SynthesisError

/-- A faulty step refuses the synthesis it is part of. -/
instance : MonadLift Checked (Except SynthesisError) where
  monadLift
    | .ok a => .ok a
    | .error f => .error (.fault f)

end Interconnect
