import Interconnect.Word

/-! # Endpoints

    The controllers that are attached to routers: caches of two levels,
    directories and DMA engines. An endpoint is named by an id of its owner's
    choosing; ids need not be distinct.
-/

namespace Interconnect

/-- What an endpoint is. -/
inductive Endpoint.Kind where
  | l1Cache
  | l2Cache
  | directory
  | dma
  deriving DecidableEq, Repr, Inhabited

/-- A controller to be attached to a router. -/
structure Endpoint where
  id : Nat
  kind : Endpoint.Kind
  deriving DecidableEq, Repr, Inhabited

namespace Endpoint

namespace Kind

def name : Kind → String
  | l1Cache => "L1Cache"
  | l2Cache => "L2Cache"
  | directory => "Directory"
  | dma => "Dma"

/-- Caches of either level are placed alike. -/
def isCache : Kind → Bool
  | l1Cache | l2Cache => true
  | directory | dma => false

end Kind

/-- The usual population: first-level caches, then directories, then DMA
    engines, numbered from zero in that order. -/
def population (caches directories dmas : Nat) : List Endpoint :=
  let kinds := List.replicate caches Kind.l1Cache ++ List.replicate directories .directory
    ++ List.replicate dmas .dma
  kinds.zipIdx.map fun (kind, id) => ⟨id, kind⟩

/-- What an endpoint takes in a list: its id, and a word that holds its kind. -/
def bytes : Nat := 16

/-- The usual population, if it is not too large to be listed. -/
def populate (caches directories dmas : Nat) : Checked (List Endpoint) := do
  let _ ← Word.length bytes (caches + directories + dmas)
  return population caches directories dmas

end Endpoint

end Interconnect
