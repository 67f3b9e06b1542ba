import Interconnect.Configuration.Document
import Interconnect.Proofs.Yaml.Reading

/-! # Configuration documents are read back

    The document of a configuration is read as that configuration, and so is what is left of it
    when keys are taken out: a key that is kept has its value, and one that is not has its
    default (`Configuration.ofDocument_document`).

    * What is left of a document is said by the paths that are kept (`Value.restrict`), at both
      levels at once. A section without keys is an empty mapping.
    * What is left of a configuration is said field by field (`Configuration.keeping`).
    * Both come from one list of keys for each record (`Configuration.keys`), which has for every
      key what is written for it and what reading it sets.
-/

namespace Interconnect

open Yaml (Value Path)
open Yaml.Typed

/-! ## Sections -/

namespace DiagramConfiguration

/-- The section with its defaults for the keys that are not kept. -/
def keeping (keep : String → Bool) (d : DiagramConfiguration) : DiagramConfiguration :=
  let default : DiagramConfiguration := {}
  { enabled := if keep "enabled" then d.enabled else default.enabled
    outputDirectory := if keep "output_dir" then d.outputDirectory else default.outputDirectory
    render := if keep "render" then d.render else default.render }

/-- The keys of the section. -/
def keys (d : DiagramConfiguration) : List (Key DiagramConfiguration) :=
  [⟨"enabled", .bool d.enabled, fun x => { x with enabled := d.enabled }⟩,
    ⟨"output_dir", .text d.outputDirectory,
      fun x => { x with outputDirectory := d.outputDirectory }⟩,
    ⟨"render", .bool d.render, fun x => { x with render := d.render }⟩]

variable (keep : Path → Bool) (path : Path) (d : DiagramConfiguration)

theorem restrict_value :
    d.value.restrict keep path =
      .record ((d.keys.filter fun e => keep (.field path e.name)).map Key.field) :=
  Value.restrict_record rfl

theorem knows_keys : Knows fields d.keys := by
  simp only [Knows, keys, List.forall_mem_cons]
  exact ⟨⟨_, rfl, (finds_boolean _).sets _ _⟩, ⟨_, rfl, (finds_filePath _).sets _ _⟩,
    ⟨_, rfl, (finds_boolean _).sets _ _⟩, by simp⟩

theorem ite_mk (k : Bool) (a a' : Bool) (b b' : String) (c c' : Bool) :
    (if k then mk a b c else mk a' b' c') =
      mk (if k then a else a') (if k then b else b') (if k then c else c') := by
  cases k <;> rfl

theorem foldl_keys (keep : String → Bool) :
    (d.keys.filter fun e => keep e.name).foldl (fun x e => e.set x) {} = d.keeping keep := by
  -- a choice between two sections is a choice in each of their fields
  rw [List.foldl_filter]
  simp only [keys, List.foldl_cons, List.foldl_nil, ite_mk, ite_self]
  rfl

/-- The section finds what is kept of it. -/
theorem finds (keep : Path → Bool) (path : Path) :
    Finds reader (d.value.restrict keep path) (d.keeping fun name => keep (.field path name)) := by
  rw [restrict_value, ← foldl_keys]
  exact finds_filter {} d.knows_keys (by simp [keys]) _

theorem readable_value : d.value.Readable := by
  refine .record (Value.isKey_of_all (by simp)) ?_
  simp only [List.forall_mem_cons]
  exact ⟨.scalar rfl, .scalar rfl, .scalar rfl, by simp⟩

end DiagramConfiguration

namespace PowerModelConfiguration

/-- The section with its defaults for the keys that are not kept. -/
def keeping (keep : String → Bool) (p : PowerModelConfiguration) : PowerModelConfiguration :=
  let default : PowerModelConfiguration := {}
  { enabled := if keep "enabled" then p.enabled else default.enabled
    outputDirectory := if keep "output_dir" then p.outputDirectory else default.outputDirectory
    linkWidthBits := if keep "link_width_bits" then p.linkWidthBits else default.linkWidthBits
    vcsPerVnet := if keep "vcs_per_vnet" then p.vcsPerVnet else default.vcsPerVnet
    buffersPerCtrlVc :=
      if keep "buffers_per_ctrl_vc" then p.buffersPerCtrlVc else default.buffersPerCtrlVc
    buffersPerDataVc :=
      if keep "buffers_per_data_vc" then p.buffersPerDataVc else default.buffersPerDataVc }

/-- The keys of the section. -/
def keys (p : PowerModelConfiguration) : List (Key PowerModelConfiguration) :=
  [⟨"enabled", .bool p.enabled, fun x => { x with enabled := p.enabled }⟩,
    ⟨"output_dir", .text p.outputDirectory,
      fun x => { x with outputDirectory := p.outputDirectory }⟩,
    ⟨"link_width_bits", .nat p.linkWidthBits.toNat,
      fun x => { x with linkWidthBits := p.linkWidthBits }⟩,
    ⟨"vcs_per_vnet", .nat p.vcsPerVnet.toNat, fun x => { x with vcsPerVnet := p.vcsPerVnet }⟩,
    ⟨"buffers_per_ctrl_vc", .nat p.buffersPerCtrlVc.toNat,
      fun x => { x with buffersPerCtrlVc := p.buffersPerCtrlVc }⟩,
    ⟨"buffers_per_data_vc", .nat p.buffersPerDataVc.toNat,
      fun x => { x with buffersPerDataVc := p.buffersPerDataVc }⟩]

variable (keep : Path → Bool) (path : Path) (p : PowerModelConfiguration)

theorem restrict_value :
    p.value.restrict keep path =
      .record ((p.keys.filter fun e => keep (.field path e.name)).map Key.field) :=
  Value.restrict_record rfl

theorem knows_keys : Knows fields p.keys := by
  simp only [Knows, keys, List.forall_mem_cons]
  exact ⟨⟨_, rfl, (finds_boolean _).sets _ _⟩, ⟨_, rfl, (finds_filePath _).sets _ _⟩,
    ⟨_, rfl, (finds_word _).sets _ _⟩, ⟨_, rfl, (finds_word _).sets _ _⟩,
    ⟨_, rfl, (finds_word _).sets _ _⟩, ⟨_, rfl, (finds_word _).sets _ _⟩, by simp⟩

theorem ite_mk (k : Bool) (a a' : Bool) (b b' : String) (c c' d d' e e' f f' : UInt64) :
    (if k then mk a b c d e f else mk a' b' c' d' e' f') =
      mk (if k then a else a') (if k then b else b') (if k then c else c')
        (if k then d else d') (if k then e else e') (if k then f else f') := by
  cases k <;> rfl

theorem foldl_keys (keep : String → Bool) :
    (p.keys.filter fun e => keep e.name).foldl (fun x e => e.set x) {} = p.keeping keep := by
  rw [List.foldl_filter]
  simp only [keys, List.foldl_cons, List.foldl_nil, ite_mk, ite_self]
  rfl

/-- The section finds what is kept of it. -/
theorem finds (keep : Path → Bool) (path : Path) :
    Finds reader (p.value.restrict keep path) (p.keeping fun name => keep (.field path name)) := by
  rw [restrict_value, ← foldl_keys]
  exact finds_filter {} p.knows_keys (by simp [keys]) _

theorem readable_value : p.value.Readable := by
  refine .record (Value.isKey_of_all (by simp)) ?_
  simp only [List.forall_mem_cons]
  exact ⟨.scalar rfl, .scalar rfl, .scalar rfl, .scalar rfl, .scalar rfl, .scalar rfl, by simp⟩

end PowerModelConfiguration

/-! ## Configurations -/

namespace Configuration

/-- The keys of a section that are kept. -/
def inSection (keep : Path → Bool) (key : String) (name : String) : Bool :=
  keep (.field (.field .root key) name)

/-- The configuration with its defaults for the keys that are not kept, in its sections too. -/
def keeping (keep : Path → Bool) (c : Configuration) : Configuration :=
  let default : Configuration := {}
  let key (name : String) : Bool := keep (.field .root name)
  { family := if key "topology" then c.family else default.family
    numCpus := if key "num_cpus" then c.numCpus else default.numCpus
    meshRows := if key "mesh_rows" then c.meshRows else default.meshRows
    concentrationFactor :=
      if key "concentration_factor" then c.concentrationFactor else default.concentrationFactor
    numDirs := if key "num_dirs" then c.numDirs else default.numDirs
    linkLatency := if key "link_latency" then c.linkLatency else default.linkLatency
    routerLatency := if key "router_latency" then c.routerLatency else default.routerLatency
    escapeRankPolicy :=
      if key "escape_rank_policy" then c.escapeRankPolicy else default.escapeRankPolicy
    diagram :=
      if key "diagram" then c.diagram.keeping (inSection keep "diagram") else default.diagram
    powerModel :=
      if key "power_model" then c.powerModel.keeping (inSection keep "power_model")
      else default.powerModel }

/-- The keys of a configuration, with what is kept of its sections. -/
def keys (keep : Path → Bool) (c : Configuration) : List (Key Configuration) :=
  [⟨"topology", .text c.family.name, fun x => { x with family := c.family }⟩,
    ⟨"num_cpus", .nat c.numCpus.toNat, fun x => { x with numCpus := c.numCpus }⟩,
    ⟨"mesh_rows", .nat c.meshRows.toNat, fun x => { x with meshRows := c.meshRows }⟩,
    ⟨"concentration_factor", .nat c.concentrationFactor.toNat,
      fun x => { x with concentrationFactor := c.concentrationFactor }⟩,
    ⟨"num_dirs", .nat c.numDirs.toNat, fun x => { x with numDirs := c.numDirs }⟩,
    ⟨"link_latency", .nat c.linkLatency.toNat, fun x => { x with linkLatency := c.linkLatency }⟩,
    ⟨"router_latency", .nat c.routerLatency.toNat,
      fun x => { x with routerLatency := c.routerLatency }⟩,
    ⟨"escape_rank_policy", .text c.escapeRankPolicy.name,
      fun x => { x with escapeRankPolicy := c.escapeRankPolicy }⟩,
    ⟨"diagram", c.diagram.value.restrict keep (.field .root "diagram"),
      fun x => { x with diagram := c.diagram.keeping (inSection keep "diagram") }⟩,
    ⟨"power_model", c.powerModel.value.restrict keep (.field .root "power_model"),
      fun x => { x with powerModel := c.powerModel.keeping (inSection keep "power_model") }⟩]

variable (keep : Path → Bool) (c : Configuration)

theorem restrict_value :
    c.value.restrict keep .root =
      .record (((c.keys keep).filter fun e => keep (.field .root e.name)).map Key.field) :=
  Value.restrict_record rfl

/-- Without its keys, a section is an empty mapping. -/
example : (value {}).restrict (fun path => path = .field .root "diagram") .root =
    .record [("diagram", .record [])] := by rfl

theorem knows_keys : Knows fields (c.keys keep) := by
  have hfamily : Family.all.find? (fun f => f.name = c.family.name) = some c.family := by
    cases c.family <;> rfl
  have hpolicy : Escape.RankPolicy.all.find? (fun p => p.name = c.escapeRankPolicy.name) =
      some c.escapeRankPolicy := by
    cases c.escapeRankPolicy <;> rfl
  simp only [Knows, keys, List.forall_mem_cons]
  exact ⟨⟨_, rfl, (finds_choice hfamily).sets _ _⟩, ⟨_, rfl, (finds_word _).sets _ _⟩,
    ⟨_, rfl, (finds_word _).sets _ _⟩, ⟨_, rfl, (finds_word _).sets _ _⟩,
    ⟨_, rfl, (finds_word _).sets _ _⟩, ⟨_, rfl, (finds_word _).sets _ _⟩,
    ⟨_, rfl, (finds_word _).sets _ _⟩, ⟨_, rfl, (finds_choice hpolicy).sets _ _⟩,
    ⟨_, rfl, (c.diagram.finds keep _).sets _ _⟩, ⟨_, rfl, (c.powerModel.finds keep _).sets _ _⟩,
    by simp⟩

theorem ite_mk (k : Bool) (a a' : Family) (b b' c c' d d' e e' f f' g g' : UInt64)
    (h h' : Escape.RankPolicy) (i i' : DiagramConfiguration) (j j' : PowerModelConfiguration) :
    (if k then mk a b c d e f g h i j else mk a' b' c' d' e' f' g' h' i' j') =
      mk (if k then a else a') (if k then b else b') (if k then c else c')
        (if k then d else d') (if k then e else e') (if k then f else f') (if k then g else g')
        (if k then h else h') (if k then i else i') (if k then j else j') := by
  cases k <;> rfl

theorem foldl_keys :
    ((c.keys keep).filter fun e => keep (.field .root e.name)).foldl (fun x e => e.set x) {} =
      c.keeping keep := by
  rw [List.foldl_filter]
  simp only [keys, List.foldl_cons, List.foldl_nil, ite_mk, ite_self]
  rfl

theorem finds : Finds reader (c.value.restrict keep .root) (c.keeping keep) := by
  rw [restrict_value, ← foldl_keys]
  exact finds_filter {} (knows_keys keep c) (by simp [keys]) _

theorem readable_value : c.value.Readable := by
  refine .record (Value.isKey_of_all (by simp)) ?_
  simp only [List.forall_mem_cons]
  exact ⟨.scalar rfl, .scalar rfl, .scalar rfl, .scalar rfl, .scalar rfl, .scalar rfl,
    .scalar rfl, .scalar rfl, c.diagram.readable_value, c.powerModel.readable_value, by simp⟩

/-- What is left of the document of a configuration is read as what is left of the
    configuration. -/
theorem ofDocument_restrict :
    ofDocument (c.value.restrict keep .root).document = .ok (c.keeping keep) :=
  (finds keep c).ofText (c.readable_value.restrict .root)

/-- The document of a configuration is read as that configuration, in every field. With keys
    taken out of it, or whole sections, it is read with the defaults in their places. -/
theorem ofDocument_document :
    ofDocument c.document = .ok c ∧
      ∀ keep : Path → Bool,
        ofDocument (c.value.restrict keep .root).document = .ok (c.keeping keep) :=
  ⟨ofDocument_restrict (fun _ => true) c, fun keep => ofDocument_restrict keep c⟩

end Configuration

end Interconnect
