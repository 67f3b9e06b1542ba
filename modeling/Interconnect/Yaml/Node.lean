import Interconnect.Yaml.Token

/-! # Nodes

    What a document says: scalars, sequences and mappings, each with the mark
    at which it begins. A node may be anchored, and an alias stands for the
    anchored node, which may be one that contains the alias.
-/

namespace Interconnect.Yaml

/-- A node of a document. -/
inductive Node where
  | scalar (mark : Mark) (text : String) (style : Style) (tag : Option Tag)
  | sequence (mark : Mark) (items : List Node)
  | mapping (mark : Mark) (entries : List (Node × Node))
  | reference (mark : Mark) (anchor : Nat)
  deriving Inhabited

/-- The mark at which a node begins. -/
def Node.mark : Node → Mark
  | scalar mark .. | sequence mark _ | mapping mark _ | reference mark _ => mark

/-- The node that stands where a text has none. -/
def Node.missing (mark : Mark) : Node :=
  .scalar mark "~" .plain none

/-- The documents of a text, and the nodes that are anchored in them. -/
structure Documents where
  roots : List Node
  anchored : List (Nat × Node)

/-- The node of an anchor. -/
def Documents.anchored? (d : Documents) (anchor : Nat) : Option Node :=
  (d.anchored.find? fun (n, _) => n = anchor).map (·.2)

end Interconnect.Yaml
