import Interconnect.SynthesisError

/-! # Placing endpoints on routers

    Two rules attach endpoints to routers `0, ..., routers - 1`.

    * `stripe` deals the endpoints out one router after the other, in rounds.
      What does not fill a round goes to router 0 and must be DMA engines.
    * `concentrate` gives each router an equal share of consecutive caches,
      spreads the directories at a fixed stride, and puts DMA engines on
      router 0.
-/

namespace Interconnect

/-- An endpoint and the router it is attached to. -/
structure Placement where
  endpoint : Endpoint
  router : Nat
  deriving DecidableEq, Repr, Inhabited

/-- A rule of attachment; `concentrate` takes the configured number of
    directories, which sets their stride. -/
inductive Placement.Rule where
  | stripe
  | concentrate (directories : Nat)
  deriving DecidableEq, Repr, Inhabited

namespace Placement

/-- What a placement takes in a list: an endpoint, and a word more. -/
def bytes : Nat := Endpoint.bytes + 8

/-- Deal the endpoints out in rounds. -/
def stripe (endpoints : List Endpoint) (routers : Nat) :
    Except SynthesisError (List Placement) := do
  let rounds ← Word.div endpoints.length routers
  let striped ← Word.mul rounds routers
  match (← Word.drop endpoints striped).find? fun e => e.kind ≠ .dma with
  | some leftover => throw (.unexpectedLeftover leftover.id leftover.kind)
  | none =>
    endpoints.zipIdx.mapM fun (e, i) => do
      if i < striped then return (⟨e, ← Word.rem i routers⟩ : Placement) else return ⟨e, 0⟩

/-- How far apart consecutive directories are placed. -/
def directoryStride (directories routers : Nat) : Checked Nat :=
  if directories = 0 then .ok 0 else Word.div routers directories

/-- Whether that many directories fit at a stride. -/
def strideFits (present stride routers : Nat) : Checked Bool := do
  if present = 0 then
    return true
  else if stride = 0 then
    return false
  else
    let steps ← Word.sub present 1
    let last ← Word.mul steps stride
    return last < routers

/-- Equal shares of caches, strided directories, DMA engines on router 0. -/
def concentrate (endpoints : List Endpoint) (routers directories : Nat) :
    Except SynthesisError (List Placement) := do
  let caches := endpoints.filter fun e => e.kind.isCache
  let dirs := endpoints.filter fun e => e.kind = .directory
  let dmas := endpoints.filter fun e => e.kind = .dma
  if (← Word.rem caches.length routers) ≠ 0 then
    throw (.unevenCaches caches.length routers)
  if caches.length < dirs.length then
    throw (.tooManyDirectories dirs.length caches.length)
  let stride ← directoryStride directories routers
  unless ← strideFits dirs.length stride routers do
    throw (.invalidDirectoryStride (max dirs.length directories) routers)
  let share ← Word.div caches.length routers
  let cachePlaces ← caches.zipIdx.mapM fun (e, i) => do
    return (⟨e, ← Word.div i share⟩ : Placement)
  let dirPlaces ← dirs.zipIdx.mapM fun (e, i) => do
    return (⟨e, ← Word.mul i stride⟩ : Placement)
  return cachePlaces ++ dirPlaces ++ dmas.map fun e => ⟨e, 0⟩

/-- Attach every endpoint to exactly one of `routers` routers, in the order
    in which their links will be numbered. -/
def Rule.place (rule : Rule) (endpoints : List Endpoint) (routers : Nat) :
    Except SynthesisError (List Placement) :=
  if routers = 0 then .error .noRouters
  else match rule with
    | .stripe => Placement.stripe endpoints routers
    | .concentrate directories => Placement.concentrate endpoints routers directories

end Placement

end Interconnect
