import Interconnect.Yaml.Node.Grammar
import Interconnect.Proofs.Yaml.Tokens

/-! # Documents are read as their values

    The tokens of a value are read as a node that shows the value (`Node.Shows`), and a document
    has that node as its only root (`ofText_document`).

    What a reader does is said by the tokens in front of it before and after (`Parse.Reads`),
    with one rule for a sequence of readers and one for each reader of a single token. Reading a
    value takes no more fuel than it has tokens.
-/

namespace Interconnect.Yaml

mutual

/-- A node shows a value: it is a scalar with the text of the value, or a mapping with an entry
    for each field. -/
inductive Node.Shows : Node → Value → Prop
  | scalar {v : Value} {style : Style} {s : String} (mark : Mark)
      (h : v.scalar? = some (style, s)) : Node.Shows (.scalar mark s style none) v
  | record {entries : List (Node × Node)} {fields : List (String × Value)} (mark : Mark)
      (h : ShowFields entries fields) : Node.Shows (.mapping mark entries) (.record fields)

/-- Entries show fields. -/
inductive ShowFields : List (Node × Node) → List (String × Value) → Prop
  | nil : ShowFields [] []
  | cons {name : String} {node : Node} {v : Value} {entries : List (Node × Node)}
      {fields : List (String × Value)} (mark : Mark) (style : Style) (hv : node.Shows v)
      (h : ShowFields entries fields) :
      ShowFields ((.scalar mark name style none, node) :: entries) ((name, v) :: fields)

end

namespace Parse

/-! ## Readers -/

/-- In front of some tokens, a reader succeeds, and stops in front of others. -/
def Reads {α : Type} (read : Parse α) (before after : List Token.Kind) (P : α → Prop) : Prop :=
  ∀ s : Source, s.tokens.map Token.kind = before →
    ∃ a s', read s = .ok (a, s') ∧ s'.tokens.map Token.kind = after ∧ P a

section reads

variable {α β : Type} {read : Parse α} {next : α → Parse β} {P : α → Prop} {Q : β → Prop}
  {before between after : List Token.Kind} {kind : Token.Kind}

theorem Reads.bind (h : Reads read before between P)
    (hnext : ∀ a, P a → Reads (next a) between after Q) :
    Reads (read >>= next) before after Q := by
  intro s hs
  obtain ⟨a, s₁, hread, hs₁, ha⟩ := h s hs
  obtain ⟨b, s₂, hread', hs₂, hb⟩ := hnext a ha s₁ hs₁
  refine ⟨b, s₂, ?_, hs₂, hb⟩
  show (read s >>= fun (a, s) => next a s) = _
  rw [hread]
  exact hread'

theorem reads_pure {a : α} (ha : P a) : Reads (pure a) before before P :=
  fun s hs => ⟨a, s, rfl, hs, ha⟩

theorem Reads.mono {R : α → Prop} (h : Reads read before after P) (hPR : ∀ a, P a → R a) :
    Reads read before after R := by
  intro s hs
  obtain ⟨a, s', hread, hs', ha⟩ := h s hs
  exact ⟨a, s', hread, hs', hPR a ha⟩

theorem reads_peek : Reads peek (kind :: after) (kind :: after) fun t => t.kind = kind := by
  intro s hs
  obtain ⟨t, ts, htokens, hkind, -⟩ := List.map_eq_cons_iff.mp hs
  refine ⟨t, s, ?_, hs, hkind⟩
  obtain ⟨tokens, error, names, lastAnchor, anchored⟩ := s
  cases htokens
  rfl

theorem reads_skip : Reads skip (kind :: after) after fun _ => True := by
  intro s hs
  obtain ⟨t, ts, htokens, -, hrest⟩ := List.map_eq_cons_iff.mp hs
  exact ⟨(), { s with tokens := s.tokens.drop 1 }, rfl, by simp [htokens, hrest], trivial⟩

theorem reads_skipIf : Reads (skipIf kind) (kind :: after) after fun b => b = true :=
  reads_peek.bind fun t ht => by
    simp only [ht, if_true]
    exact reads_skip.bind fun _ _ => reads_pure rfl

theorem reads_skipIf_of_ne {other : Token.Kind} (hne : kind ≠ other) :
    Reads (skipIf other) (kind :: after) (kind :: after) fun b => b = false :=
  reads_peek.bind fun t ht => by
    simp only [ht, if_neg hne]
    exact reads_pure rfl

/-- No node is missing in front of its first token. -/
theorem reads_missingBefore {kinds : List Token.Kind} (hkind : kind ∉ kinds) :
    Reads (missingBefore kinds) (kind :: after) (kind :: after) fun n => n = none :=
  reads_peek.bind fun t ht => reads_pure (by simp [ht, hkind])

end reads

/-! ## Nodes -/

/-- The first token of a scalar or of a record. -/
def opens : Token.Kind → Bool
  | .scalar .. | .flowMappingStart | .blockMappingStart => true
  | _ => false

/-- No node is missing where a token opens one. -/
theorem not_mem_of_opens {kind : Token.Kind} {kinds : List Token.Kind} (hkind : opens kind = true)
    (hkinds : kinds.any opens = false) : kind ∉ kinds :=
  fun hmem => List.any_eq_false.mp hkinds kind hmem hkind

/-- How reading goes on at the first token of a node without properties. -/
def opened (fuel : Nat) (t : Token) : Parse Node := do
  match t.kind with
  | .scalar style text =>
    skip
    return .scalar t.mark text style none
  | .flowMappingStart =>
    skip
    return .mapping t.mark (← flowEntries true fuel)
  | .blockMappingStart =>
    skip
    return .mapping t.mark (← blockEntries fuel)
  | _ => absent {} t

variable {kind : Token.Kind} {before after : List Token.Kind} {unindented : Bool} {fuel : Nat}

theorem reads_node {P : Node → Prop} (hkind : opens kind = true)
    (h : ∀ t : Token, t.kind = kind → Reads (opened fuel t) (kind :: before) after P) :
    Reads (node true unindented (fuel + 1)) (kind :: before) after P := by
  rw [node]
  refine reads_peek.bind fun t ht => ?_
  -- the token is looked at again once it is clear that no anchor or tag stands there
  have hproperties : Reads properties (kind :: before) (kind :: before) fun p => p = {} := by
    refine reads_peek.bind fun t ht => ?_
    cases kind with
    | scalar | flowMappingStart | blockMappingStart =>
      simp only [ht]
      exact reads_pure rfl
    | _ => cases hkind
  cases kind with
  | scalar | flowMappingStart | blockMappingStart =>
    simp only [ht]
    refine hproperties.bind fun p hp => ?_
    refine reads_peek.bind fun t ht => ?_
    subst hp
    have hopened := h t ht
    simp only [opened, ht] at hopened ⊢
    exact hopened
  | _ => cases hkind

/-- A scalar is read as it is. -/
theorem reads_scalar (style : Style) (text : String) :
    Reads (node true unindented (fuel + 1)) (.scalar style text :: after) after
      fun n => ∃ mark, n = .scalar mark text style none :=
  reads_node rfl fun t ht => by
    simp only [opened, ht]
    exact reads_skip.bind fun _ _ => reads_pure ⟨_, rfl⟩

/-- An empty record has no entries. -/
theorem reads_empty :
    Reads (node true unindented (fuel + 2)) (.flowMappingStart :: .flowMappingEnd :: after) after
      fun n => ∃ mark, n = .mapping mark [] :=
  reads_node rfl fun t ht => by
    have hentries : Reads (flowEntries true (fuel + 1)) (.flowMappingEnd :: after) after
        fun entries => entries = [] := by
      rw [flowEntries]
      refine reads_skipIf.bind fun b hb => ?_
      rw [hb]
      exact reads_pure rfl
    simp only [opened, ht]
    refine reads_skip.bind fun _ _ => ?_
    exact hentries.bind fun entries hentries => reads_pure ⟨t.mark, by rw [hentries]⟩

/-- A node is read where one may be missing. -/
theorem Reads.nodeUnless {P : Node → Prop} {kinds : List Token.Kind} {block : Bool}
    (hkind : kind ∉ kinds) (h : Reads (node block unindented fuel) (kind :: before) after P) :
    Reads (nodeUnless kinds block unindented (fuel + 1)) (kind :: before) after P := by
  rw [Parse.nodeUnless]
  refine (reads_missingBefore hkind).bind fun n hn => ?_
  subst hn
  exact h

end Parse

namespace Value

open Parse

variable {v : Value} {fields : List (String × Value)}

/-- A value that can be read back begins with a token of its own. -/
theorem Readable.exists_tokens (hv : v.Readable) :
    ∃ kind rest, v.tokens = kind :: rest ∧ opens kind = true := by
  obtain h | ⟨-, -⟩ := hv
  · exact ⟨_, [], tokens_scalar h, rfl⟩
  · rename_i fields
    cases fields with
    | nil => exact ⟨_, _, rfl, rfl⟩
    | cons f fields => exact ⟨_, _, rfl, rfl⟩

/-- With so much fuel, a value is read from its tokens, and nothing else. -/
def IsRead (v : Value) : Prop :=
  ∀ (unindented : Bool) (fuel : Nat) (after : List Token.Kind), v.tokens.length ≤ fuel →
    Reads (node true unindented fuel) (v.tokens ++ after) after fun n => n.Shows v

/-- The value of a field is read behind its `:`. -/
theorem reads_blockValue (hv : v.Readable) (hread : v.IsRead) (fuel : Nat)
    (after : List Token.Kind) (hfuel : v.tokens.length ≤ fuel) :
    Reads (blockValue (fuel + 2)) (.value :: (v.tokens ++ after)) after fun n => n.Shows v := by
  obtain ⟨kind, more, htokens, hopens⟩ := hv.exists_tokens
  have hkind : kind ∉ [Token.Kind.key, .value, .blockEnd] := not_mem_of_opens hopens rfl
  have hnode := hread true fuel after hfuel
  rw [blockValue]
  refine reads_skipIf.bind fun b hb => ?_
  rw [htokens] at hnode ⊢
  rw [hb]
  exact hnode.nodeUnless hkind

/-- The fields of a record are read up to its end. -/
theorem reads_fields (hvalues : ∀ f ∈ fields, f.2.Readable) (hread : ∀ f ∈ fields, f.2.IsRead)
    (fuel : Nat) (after : List Token.Kind) (hfuel : (fieldTokens fields).length < fuel) :
    Reads (blockEntries fuel) (fieldTokens fields ++ .blockEnd :: after) after
      fun entries => ShowFields entries fields := by
  induction fields generalizing fuel with
  | nil =>
    obtain ⟨fuel, rfl⟩ : ∃ k, fuel = k + 1 := ⟨fuel - 1, by omega⟩
    rw [blockEntries]
    refine reads_peek.bind fun t ht => ?_
    simp only [ht]
    exact reads_skip.bind fun _ _ => reads_pure .nil
  | cons f fields ih =>
    obtain ⟨name, v⟩ := f
    rw [fieldTokens, entryTokens, List.length_cons, List.length_cons, List.length_cons,
      List.length_append] at hfuel
    -- a field has three tokens besides those of its value
    obtain ⟨fuel, rfl⟩ : ∃ k, fuel = k + 3 := ⟨fuel - 3, by omega⟩
    have hlength : v.tokens.length ≤ fuel := by omega
    have hvalue := reads_blockValue (hvalues (name, v) List.mem_cons_self)
      (hread (name, v) List.mem_cons_self) fuel (fieldTokens fields ++ .blockEnd :: after) hlength
    have hrest := ih (fun f hf => hvalues f (List.mem_cons_of_mem _ hf))
      (fun f hf => hread f (List.mem_cons_of_mem _ hf)) (fuel + 2) (by omega)
    rw [blockEntries]
    simp only [fieldTokens, entryTokens, List.cons_append, List.append_assoc]
    refine reads_peek.bind fun t ht => ?_
    simp only [ht]
    refine reads_skip.bind fun _ _ => ?_
    refine ((reads_scalar (styleOf name) name).nodeUnless (by simp)).bind ?_
    rintro _ ⟨mark, rfl⟩
    refine hvalue.bind fun n hn => ?_
    exact hrest.bind fun entries hentries => reads_pure (.cons mark (styleOf name) hn hentries)

/-- A value that can be read back is read from its tokens. -/
theorem Readable.isRead (hv : v.Readable) : v.IsRead := by
  induction hv with
  | scalar h =>
    intro unindented fuel after hfuel
    rw [tokens_scalar h] at hfuel ⊢
    obtain ⟨fuel, rfl⟩ : ∃ k, fuel = k + 1 := ⟨fuel - 1, (Nat.sub_add_cancel hfuel).symm⟩
    refine (reads_scalar _ _).mono ?_
    rintro _ ⟨mark, rfl⟩
    exact .scalar mark h
  | @record fields keys values ih =>
    intro unindented fuel after hfuel
    cases fields with
    | nil =>
      obtain ⟨fuel, rfl⟩ : ∃ k, fuel = k + 2 := ⟨fuel - 2, (Nat.sub_add_cancel hfuel).symm⟩
      refine reads_empty.mono ?_
      rintro _ ⟨mark, rfl⟩
      exact .record mark .nil
    | cons f fields =>
      have htokens : (Value.record (f :: fields)).tokens =
          .blockMappingStart :: (fieldTokens (f :: fields) ++ [.blockEnd]) := by
        rw [tokens]
        rfl
      rw [htokens, List.length_cons, List.length_append, List.length_singleton] at hfuel
      obtain ⟨fuel, rfl⟩ : ∃ k, fuel = k + 1 := ⟨fuel - 1, by omega⟩
      have hfields := reads_fields values ih fuel after (by omega)
      rw [htokens, List.cons_append, List.append_assoc]
      refine reads_node rfl fun t ht => ?_
      simp only [opened, ht]
      refine reads_skip.bind fun _ _ => ?_
      exact hfields.bind fun entries hentries => reads_pure (.record t.mark hentries)

/-! ## Documents -/

/-- At the end of the text there are no more documents. -/
theorem reads_streamEnd (fuel left : Nat) :
    Reads (documents (fuel + 1) false (left + 1)) [.streamEnd] [.streamEnd]
      fun roots => roots = [] := by
  have hends : Reads (documentEnds (fuel + 1)) [.streamEnd] [.streamEnd] fun _ => True := by
    rw [documentEnds]
    refine (reads_skipIf_of_ne (by decide)).bind fun b hb => ?_
    rw [hb]
    exact reads_pure trivial
  have hdocument : Reads (Parse.document false (fuel + 1)) [.streamEnd] [.streamEnd]
      fun root => root = none := by
    rw [Parse.document]
    refine hends.bind fun _ _ => reads_peek.bind fun t ht => ?_
    simp only [ht, if_true]
    exact reads_pure rfl
  rw [documents]
  refine hdocument.bind fun root hroot => ?_
  subst hroot
  exact reads_pure rfl

/-- An announced document is read up to what follows it. -/
theorem Readable.reads_document (hv : v.Readable) (fuel : Nat) (hfuel : v.tokens.length ≤ fuel) :
    Reads (Parse.document true (fuel + 1)) (.documentStart :: (v.tokens ++ [.streamEnd]))
      [.streamEnd] fun root => ∃ n, root = some n ∧ n.Shows v := by
  obtain ⟨kind, more, htokens, hopens⟩ := hv.exists_tokens
  have hkind : kind ∉ [Token.Kind.directive, .documentStart, .documentEnd, .streamEnd] :=
    not_mem_of_opens hopens rfl
  have hroot := hv.isRead false fuel [.streamEnd] hfuel
  rw [htokens, List.cons_append] at hroot ⊢
  -- no directive stands between the beginning of the text and that of the document
  have hdirectives : Reads (directives (fuel + 1))
      (.documentStart :: kind :: (more ++ [.streamEnd]))
      (.documentStart :: kind :: (more ++ [.streamEnd])) fun _ => True := by
    rw [directives]
    refine (reads_skipIf_of_ne (by decide)).bind fun b hb => ?_
    rw [hb]
    exact reads_pure trivial
  have hforget : Reads (modify fun s => { s with names := [] })
      (.documentStart :: kind :: (more ++ [.streamEnd]))
      (.documentStart :: kind :: (more ++ [.streamEnd])) fun _ => True :=
    fun s hs => ⟨(), { s with names := [] }, rfl, hs, trivial⟩
  rw [Parse.document]
  refine reads_peek.bind fun t ht => ?_
  simp only [ht]
  refine hforget.bind fun _ _ => hdirectives.bind fun _ _ => reads_skipIf.bind fun b hb => ?_
  rw [hb]
  refine (hroot.nodeUnless hkind).bind fun n hn => ?_
  exact (reads_skipIf_of_ne (by decide)).bind fun _ _ => reads_pure ⟨n, rfl, hn⟩

/-- A text of one document is read as that document. -/
theorem Readable.reads_documents (hv : v.Readable) (fuel left : Nat)
    (hfuel : v.tokens.length ≤ fuel) :
    Reads (documents (fuel + 1) true (left + 2)) (.documentStart :: (v.tokens ++ [.streamEnd]))
      [.streamEnd] fun roots => ∃ root, roots = [root] ∧ root.Shows v := by
  rw [documents]
  refine (hv.reads_document fuel hfuel).bind fun root hroot => ?_
  obtain ⟨n, rfl, hn⟩ := hroot
  refine (reads_streamEnd fuel left).bind fun roots hroots => ?_
  exact reads_pure ⟨n, by rw [hroots], hn⟩

/-- The document of a record has a single root, which shows the record. -/
theorem Readable.exists_root (h : (Value.record fields).Readable) :
    ∃ docs root, Documents.ofText (document (.record fields)) = .ok docs ∧ docs.roots = [root] ∧
      root.Shows (.record fields) := by
  obtain ⟨-, htokens⟩ := h.ofText_document
  have hlength : (TokenStream.ofText (document (.record fields))).tokens.length =
      (Value.record fields).tokens.length + 2 := by
    have hmapped := congrArg List.length htokens
    simpa using hmapped
  obtain ⟨roots, s, hread, -, root, rfl, hroot⟩ := h.reads_documents
    (4 * (TokenStream.ofText (document (.record fields))).tokens.length + 15)
    (4 * (TokenStream.ofText (document (.record fields))).tokens.length + 14) (by omega)
    ⟨_, (TokenStream.ofText (document (.record fields))).error, [], 0, []⟩ htokens
  refine ⟨⟨[root], s.anchored⟩, root, ?_, rfl, hroot⟩
  simp only [Documents.ofText, StateT.run, hread]
  rfl

end Value

end Interconnect.Yaml
