import Interconnect.Yaml.Typed
import Interconnect.Proofs.Yaml.Digits
import Interconnect.Proofs.Yaml.Nodes

/-! # Values are read back

    What a reader finds in a node that shows a value (`Typed.Finds`): for each reader of scalars,
    the value that was written, and for a record what its fields set.

    A record may have only some of the fields that its reader knows. Each field that is there is
    found by its name, and set after those before it; nothing else changes, so that the fields
    that are missing keep what they had (`finds_record`).
-/

namespace Interconnect.Yaml

theorem Node.Shows.exists_scalar {node : Node} {v : Value} {style : Style} {s : String}
    (h : node.Shows v) (hv : v.scalar? = some (style, s)) :
    ∃ mark, node = .scalar mark s style none := by
  cases h with
  | scalar mark h =>
    obtain ⟨rfl, rfl⟩ := Prod.mk.inj (Option.some.inj (h.symm.trans hv))
    exact ⟨mark, rfl⟩
  | record mark h => cases hv

namespace Typed

/-- A reader finds this in every node that shows a value. -/
def Finds {α : Type} (read : Reader α) (v : Value) (a : α) : Prop :=
  ∀ (docs : Documents) (path : Path) (node : Node), node.Shows v → read docs path node = .ok a

/-! ## Scalars -/

theorem finds_boolean (b : Bool) : Finds boolean (.bool b) b := by
  intro docs path node hnode
  obtain ⟨mark, rfl⟩ := hnode.exists_scalar rfl
  cases b <;> rfl

theorem finds_word (x : UInt64) : Finds word (.nat x.toNat) x := by
  intro docs path node hnode
  obtain ⟨mark, rfl⟩ := hnode.exists_scalar rfl
  have hfound : found (.scalar mark (toString x.toNat) .plain none) =
      .ok (.integer (Int.ofNat x.toNat)) := by
    have hmeaning : Scalar.meaning (toString x.toNat) .plain none =
        .ok (.integer (Int.ofNat x.toNat)) := by
      rw [Scalar.meaning, if_pos rfl]
      exact congrArg Except.ok (Scalar.untagged_repr x)
    rw [found, hmeaning]
  have hsign : ¬Int.ofNat x.toNat < 0 := Int.not_lt.mpr (Int.natCast_nonneg _)
  simp only [word, byMeaning, target, hfound, Bind.bind, Except.bind, Option.getD_some,
    if_neg hsign]
  simp [placed]

theorem finds_filePath (s : String) : Finds filePath (.text s) s := by
  intro docs path node hnode
  obtain ⟨mark, rfl⟩ := hnode.exists_scalar rfl
  rfl

/-- A choice finds the alternative that its name stands for. -/
theorem finds_choice {α : Type} {type : String} {all : List α} {name : α → String} {a : α}
    (ha : all.find? (fun b => name b = name a) = some a) :
    Finds (choice type all name) (.text (name a)) a := by
  intro docs path node hnode
  obtain ⟨mark, rfl⟩ := hnode.exists_scalar rfl
  simp [choice, target, choose, ha, placed]

/-! ## Records -/

section record

variable {σ : Type}

/-- What a field does to a record when it is read from a node that shows a value. -/
def Slot.Sets (f : Slot σ) (v : Value) (set : σ → σ) : Prop :=
  ∀ (docs : Documents) (path : Path) (node : Node) (s : σ),
    node.Shows v → f.read docs path node s = .ok (set s)

theorem Finds.sets {α : Type} {read : Reader α} {v : Value} {a : α} (h : Finds read v a)
    (name : String) (set : σ → α → σ) : (Slot.of name read set).Sets v fun s => set s a := by
  intro docs path node s hnode
  simp only [Slot.of, h docs path node hnode]
  rfl

/-- A field of a record as it is written, and what it sets when it is read. -/
structure Key (σ : Type) where
  name : String
  value : Value
  set : σ → σ

/-- The field that is written. -/
def Key.field (e : Key σ) : String × Value :=
  (e.name, e.value)

variable {slots : List (Slot σ)} {keys : List (Key σ)}

/-- A reader knows these keys, and sets them from the values that they have. -/
def Knows (slots : List (Slot σ)) (keys : List (Key σ)) : Prop :=
  ∀ e ∈ keys, ∃ f, slots.find? (fun f => f.name = e.name) = some f ∧ f.Sets e.value e.set

/-- The fields of a record are set one after the other. -/
theorem entries_eq (hslots : Knows slots keys) (hnames : (keys.map Key.name).Nodup)
    {seen : List String} (hseen : ∀ e ∈ keys, e.name ∉ seen) {es : List (Node × Node)}
    (hes : ShowFields es (keys.map Key.field)) (docs : Documents) (path : Path) (s : σ) :
    entries slots docs path seen es s = .ok (keys.foldl (fun s e => e.set s) s) := by
  induction keys generalizing seen es s with
  | nil =>
    cases hes
    rfl
  | cons e keys ih =>
    obtain ⟨he, hnames⟩ := List.nodup_cons.mp hnames
    obtain ⟨f, hfind, hset⟩ := hslots e List.mem_cons_self
    cases hes with
    | cons mark style hv hes =>
      have hunseen : e.name ∉ seen := hseen e List.mem_cons_self
      -- the name counts as seen from here on, and the names that follow are others
      have hrest : ∀ q ∈ keys, q.name ∉ e.name :: seen := by
        intro q hq hmem
        rcases List.mem_cons.mp hmem with hname | hmem
        · exact he (hname ▸ List.mem_map_of_mem hq)
        · exact hseen q (List.mem_cons_of_mem _ hq) hmem
      have hnext := ih (fun q hq => hslots q (List.mem_cons_of_mem _ hq)) hnames hrest hes
        (e.set s)
      simp only [entries, scalarText, target, Bind.bind, Except.bind, hfind, if_neg hunseen,
        hset docs _ _ s hv, hnext, List.foldl_cons]

/-- A record is found with the fields that are there set, and the others as they were. -/
theorem finds_record {type : String} (initial : σ) (hslots : Knows slots keys)
    (hnames : (keys.map Key.name).Nodup) :
    Finds (record type slots initial) (.record (keys.map Key.field))
      (keys.foldl (fun s e => e.set s) initial) := by
  intro docs path node hnode
  cases hnode with
  | scalar mark h => cases h
  | record mark h =>
    have hentries := entries_eq hslots hnames (fun _ _ => List.not_mem_nil) h docs path initial
    show placed path mark (entries slots docs path [] _ initial) = _
    rw [hentries]
    rfl

/-- So is a record that was left with some of its fields. -/
theorem finds_filter {type : String} (initial : σ) (hslots : Knows slots keys)
    (hnames : (keys.map Key.name).Nodup) (keep : Key σ → Bool) :
    Finds (record type slots initial) (.record ((keys.filter keep).map Key.field))
      ((keys.filter keep).foldl (fun s e => e.set s) initial) :=
  finds_record initial (fun e he => hslots e (List.mem_filter.mp he).1)
    (hnames.sublist (List.filter_sublist.map Key.name))

end record

end Typed

/-! ## Leaving out fields -/

namespace Value

open Typed (Key)

mutual

/-- A record without the fields whose paths are not kept, at every level. -/
def restrict (keep : Path → Bool) (path : Path) : Value → Value
  | record fields => record (restrictFields keep path fields)
  | v => v

/-- The fields whose paths are kept. -/
def restrictFields (keep : Path → Bool) (path : Path) :
    List (String × Value) → List (String × Value)
  | [] => []
  | (name, v) :: rest =>
    if keep (.field path name) then
      (name, restrict keep (.field path name) v) :: restrictFields keep path rest
    else restrictFields keep path rest

end

variable {keep : Path → Bool} {path : Path} {fields : List (String × Value)}

theorem restrictFields_eq :
    restrictFields keep path fields =
      (fields.map fun f => (f.1, f.2.restrict keep (.field path f.1))).filter
        fun f => keep (.field path f.1) := by
  induction fields with
  | nil => rfl
  | cons f fields ih =>
    obtain ⟨name, v⟩ := f
    rw [restrictFields, ih, List.map_cons, List.filter_cons]

theorem Readable.restrict {v : Value} (hv : v.Readable) (path : Path) :
    (v.restrict keep path).Readable := by
  induction hv generalizing path with
  | @scalar v style s h =>
    -- a scalar has no fields to leave out
    have hsame : v.restrict keep path = v := by
      cases v with
      | record fields => cases h
      | _ => rw [Value.restrict]; simp
    rw [hsame]
    exact .scalar h
  | @record fields hkeys values ih =>
    rw [Value.restrict, restrictFields_eq]
    refine .record ?_ ?_
    · intro f hf
      obtain ⟨g, hg, rfl⟩ := List.mem_map.mp (List.mem_filter.mp hf).1
      exact hkeys g hg
    · intro f hf
      obtain ⟨g, hg, rfl⟩ := List.mem_map.mp (List.mem_filter.mp hf).1
      exact ih g hg _

/-- The keys of a record are kept as its fields are. -/
theorem restrict_record {σ : Type} {keys : List (Key σ)}
    (h : fields.map (fun f => (f.1, f.2.restrict keep (.field path f.1))) =
      keys.map Key.field) :
    (record fields).restrict keep path =
      record ((keys.filter fun e => keep (.field path e.name)).map Key.field) := by
  rw [restrict, restrictFields_eq, h, List.filter_map]
  rfl

end Value

namespace Typed

/-! ## Documents -/

/-- What is found in a value that can be read back is found in its document. -/
theorem Finds.ofText {α : Type} {read : Reader α} {fields : List (String × Value)} {a : α}
    (h : Finds read (.record fields) a) (hfields : (Value.record fields).Readable) :
    ofText read (Value.record fields).document = .ok a := by
  obtain ⟨docs, root, hdocs, hroots, hroot⟩ := hfields.exists_root
  -- the definition itself, as its equation is slow to come by
  delta Typed.ofText
  simp only [hdocs, hroots, h docs .root root hroot]
  rfl

end Typed

end Interconnect.Yaml
