import Interconnect.Proofs.Yaml.Scan

/-! # Lines and fields

    Between two pieces of a written document, the cutting is in one of two states: in front of a
    line (`AtLine`), or behind the `:` of a field (`Behind`). The lemmas here are the steps
    between them.

    * A line ends the blocks that lie further in than it does (`AtLine.advance`), and what
      stands at its beginning is read as a key (`readPiece_key`).
    * The `:` behind a key makes it one, and begins a block if the key lies further in than the
      block around it (`AtColon.readValue`).
    * A scalar behind the `:` is read up to the next line (`readPiece_value`). An empty record is
      read brace by brace (`Behind.advance_open`, `advance_close`).
    * The end of the text ends all blocks (`AtLine.advance_finish`).
-/

namespace Interconnect.Yaml

/-! ## States between pieces -/

namespace Scan

/-- In front of a line: nothing is held back, and the line begins at a column. -/
structure AtLine (s : Scan) (column : Nat) (rest : List Char) (stack : List Int) : Prop where
  held : s.held = []
  keys : s.keys = [none]
  stack : s.indent :: s.outer = stack
  passed : ∃ mark : Mark, mark.column = column ∧
    blanksFrom false s.keyAllowed false s.cursor.mark s.cursor.rest = (⟨rest, mark⟩, true)

/-- Behind the `:` of a field. -/
structure Behind (s : Scan) (text : List Char) (stack : List Int) : Prop where
  held : s.held = []
  keys : s.keys = [none]
  stack : s.indent :: s.outer = stack
  keyAllowed : s.keyAllowed = false
  rest : s.cursor.rest = text
  column : s.indent < s.cursor.mark.column

/-- At the `:` behind a key, which is held back behind other tokens. -/
structure AtColon (s : Scan) (front : List Token) (key : Token) (more : List Char) : Prop where
  held : s.held = front ++ [key]
  keys : s.keys = [some ⟨s.delivered + front.length, key.mark, false⟩]
  keyAllowed : s.keyAllowed = false
  rest : s.cursor.rest = ':' :: more
  fresh : ∀ k, some k ∈ s.keys → Candidate.isStale k s.cursor.mark = false
  indent : s.indent ≤ key.mark.column
  column : key.mark.column ≤ s.cursor.mark.column

variable {s : Scan} {level top : Int} {column : Nat} {rest : List Char} {stack outer : List Int}
  {mark : Mark}

theorem inFlow_of_keys {k : Option Candidate} (hkeys : s.keys = [k]) : s.inFlow = false := by
  simp [inFlow, flowLevel, hkeys]

/-- No blanks are passed in front of a character that is neither passed over nor begins a
    comment. -/
theorem blanksFrom_cons {c : Char} (hspace : isSpace c = false) (hcomment : c ≠ '#')
    (keyAllowed : Bool) :
    blanksFrom false keyAllowed false mark (c :: rest) = (⟨c :: rest, mark⟩, keyAllowed) := by
  simp only [isSpace, isBlank, Bool.or_eq_false_iff, decide_eq_false_iff_not] at hspace
  obtain ⟨⟨hblank, htab⟩, hbreak⟩ := hspace
  simp [blanksFrom, hblank, htab, hbreak, hcomment]

theorem blanksFrom_lineStart (hline : LineStart level column rest) :
    blanksFrom false true false mark rest = (⟨rest, mark⟩, true) := by
  cases hline with
  | finish => rfl
  | piece column rest hspace hcomment => exact blanksFrom_cons hspace hcomment true

theorem blanksFrom_spaces (n : Nat) (keyAllowed : Bool) :
    blanksFrom false keyAllowed false mark (List.replicate n ' ' ++ rest) =
      blanksFrom false keyAllowed false (mark.along n) rest := by
  induction n generalizing mark with
  | zero => rfl
  | succ n ih =>
    rw [List.replicate_succ, List.cons_append, blanksFrom, if_neg (by decide), if_pos (by simp),
      Mark.after_of_ne (by decide)]
    refine ih.trans ?_
    rw [Mark.along_along, Nat.add_comm 1]

theorem blanksFrom_lineAt (hline : LineStart level column rest) (keyAllowed : Bool) :
    blanksFrom false keyAllowed false mark (lineAt column rest) =
      (⟨rest, mark.below column⟩, true) := by
  rw [lineAt, blanksFrom, if_pos (by decide), blanksFrom_spaces, Mark.after_feed_along,
    Bool.not_false, Bool.or_true, blanksFrom_lineStart hline]

/-- The break may still have to be passed. -/
theorem atLine_of_lineAt (hheld : s.held = []) (hkeys : s.keys = [none])
    (hstack : s.indent :: s.outer = stack) (hline : LineStart level column rest)
    (hrest : s.cursor.rest = lineAt column rest) : s.AtLine column rest stack :=
  ⟨hheld, hkeys, hstack, s.cursor.mark.below column, rfl, by
    rw [hrest, blanksFrom_lineAt hline]⟩

/-- It may also have been passed with a scalar in front of it. -/
theorem atLine_of_passed (hheld : s.held = []) (hkeys : s.keys = [none])
    (hstack : s.indent :: s.outer = stack) (hline : LineStart level column rest)
    (hallowed : s.keyAllowed = true) (hrest : s.cursor.rest = rest)
    (hcolumn : s.cursor.mark.column = column) : s.AtLine column rest stack :=
  ⟨hheld, hkeys, hstack, s.cursor.mark, hcolumn, by
    rw [hrest, hallowed, blanksFrom_lineStart hline]⟩

/-- Blocks are ended when a column is reached. -/
theorem unroll_append (pending : List Int) {column : Int} (hflow : s.inFlow = false)
    (hstack : s.indent :: s.outer = pending ++ top :: outer)
    (hpending : ∀ x ∈ pending, column < x) (htop : top ≤ column) :
    s.unroll column = { s with
      indent := top, outer, held := s.held ++ blockEnds pending.length s.cursor.mark } := by
  rw [unroll, hflow, if_neg Bool.false_ne_true, unrollFrom_append _ hstack hpending htop]

/-- No block is ended by what lies further in. -/
theorem unroll_of_le {column : Int} (hflow : s.inFlow = false) (hindent : s.indent ≤ column) :
    s.unroll column = s := by
  rw [unroll_append [] hflow rfl (by simp) hindent]
  simp [blockEnds]

theorem advance_eq {s₁ s₂ : Scan} (hpassed : s.passBlanks = s₁) (hfresh : s₁.dropStale = .ok s₁)
    (hunrolled : s₁.unroll s₁.cursor.mark.column = s₂) : s.advance = s₂.readPiece := by
  rw [advance, hpassed, hfresh, ← hunrolled]
  rfl

/-- A line ends the blocks that lie further in, and the piece at its beginning is read. -/
theorem AtLine.advance {pending : List Int} (h : s.AtLine column rest (pending ++ top :: outer))
    (hpending : ∀ x ∈ pending, (column : Int) < x) (htop : top ≤ column) :
    ∃ mark : Mark, mark.column = column ∧ s.advance = readPiece { s with
      cursor := ⟨rest, mark⟩, keyAllowed := true, indent := top, outer,
      held := blockEnds pending.length mark } := by
  obtain ⟨mark, rfl, hpassed⟩ := h.passed
  let s₁ : Scan := { s with cursor := ⟨rest, mark⟩, keyAllowed := true }
  have hkeys : s₁.keys = [none] := h.keys
  have hblanks : s.passBlanks = s₁ := by rw [passBlanks, inFlow_of_keys h.keys, hpassed]
  have hunrolled := unroll_append pending (inFlow_of_keys hkeys) h.stack hpending htop
  rw [show s₁.held = [] from h.held, List.nil_append] at hunrolled
  exact ⟨mark, rfl, advance_eq hblanks (TokenStream.dropStale_of_keys hkeys) hunrolled⟩

/-- On the line of a key, the piece behind a space is read. -/
theorem Behind.advance (h : s.Behind (' ' :: rest) stack)
    (hrest : ∀ mark, blanksFrom false false false mark rest = (⟨rest, mark⟩, false)) :
    ∃ mark : Mark, s.indent ≤ mark.column ∧
      s.advance = readPiece { s with cursor := ⟨rest, mark⟩ } := by
  have hpassed : s.passBlanks = { s with cursor := ⟨rest, s.cursor.mark.along 1⟩ } := by
    have hspace : blanksFrom false false false s.cursor.mark (' ' :: rest) =
        (⟨rest, s.cursor.mark.along 1⟩, false) := (blanksFrom_spaces 1 false).trans (hrest _)
    rw [passBlanks, inFlow_of_keys h.keys, h.keyAllowed, h.rest, hspace]
  have hcolumn : s.indent ≤ (s.cursor.mark.along 1).column := by
    have := h.column
    rw [Mark.along_column]
    omega
  refine ⟨_, hcolumn, advance_eq hpassed (TokenStream.dropStale_of_keys h.keys) ?_⟩
  exact unroll_of_le (inFlow_of_keys h.keys) hcolumn

/-! ## Scalars -/

section scalar

variable {style : Style} {text : String} {more : List Char}

/-- Where a scalar begins, there are no blanks to pass. -/
theorem blanksFrom_written (hfits : style.Fits text) (keyAllowed : Bool) :
    blanksFrom false keyAllowed false mark (style.written text ++ more) =
      (⟨style.written text ++ more, mark⟩, keyAllowed) := by
  obtain ⟨c, cs, hwritten, hspace, hcomment⟩ := hfits.exists_cons
  rw [hwritten]
  exact blanksFrom_cons hspace hcomment keyAllowed

theorem readPiece_quoted (hrest : s.cursor.rest = '\x22' :: more) :
    s.readPiece = s.readQuoted Scalar.double := by
  simp [readPiece, hrest, startsWithIndicator]

/-- A plain scalar is read for what it is. -/
theorem readPiece_plain {cs : List Char} (hplain : IsPlain cs)
    (hrest : s.cursor.rest = cs ++ more) : s.readPiece = s.readPlain := by
  obtain ⟨c, cs, rfl⟩ := List.exists_cons_of_ne_nil hplain.ne_nil
  have hleading := (hplain.head c rfl).2
  have hindicator := hplain.chars c List.mem_cons_self
  have hne : ∀ x, (Value.isLeadingIndicator x || Value.isIndicator x) = true → c ≠ x := by
    rintro x hx rfl
    rw [hleading, hindicator] at hx
    cases hx
  have hdirective : ¬(s.cursor.mark.column = 0 ∧ c = '%') := fun h => hne '%' (by decide) h.2
  have hstart : startsWithIndicator (c :: (cs ++ more)) = false := by
    simp [startsWithIndicator, hne '-' (by decide), hne '.' (by decide)]
  -- every other reader needs an indicator to begin with
  rw [readPiece, hrest, List.cons_append]
  simp only [if_neg hdirective, hstart, Bool.false_eq_true, and_false, if_false]
  split
  all_goals first | rfl | exact absurd rfl (hne _ (by decide))

theorem markKey_of_not_allowed (hallowed : s.keyAllowed = false) : s.markKey = .ok s := by
  rw [markKey, hallowed]
  rfl

theorem markKey_of_allowed (hkeys : s.keys = [none]) (hallowed : s.keyAllowed = true) :
    s.markKey = .ok { s with
      keys := [some ⟨s.delivered + s.held.length, s.cursor.mark, false⟩] } := by
  have hdropped : s.dropKey = .ok s := by simp [dropKey, hkeys]
  rw [markKey, if_pos hallowed, inFlow_of_keys hkeys, hdropped]
  simp [Bind.bind, Except.bind, pure, Except.pure, hkeys]

theorem readQuoted_eq {s₁ : Scan} {behind : Cursor} {read : Cursor → Scalar.QuotedResult}
    (hmark : s.markKey = .ok s₁) (hread : read s₁.cursor = .ok (text, behind)) :
    s.readQuoted read = .ok { s₁.push (.scalar .quoted text) s₁.cursor.mark with
      cursor := behind, adjacentAt := behind.mark.index, keyAllowed := false } := by
  simp only [readQuoted, hmark, hread, Bind.bind, Except.bind]
  rfl

theorem readPlain_eq {s₁ : Scan} {p : Scalar.Plain} (hmark : s.markKey = .ok s₁)
    (hread : Scalar.plain ⟨s₁.inFlow, s₁.indent + 1⟩ s₁.cursor = .ok p) :
    s.readPlain = .ok { s₁.push (.scalar .plain p.text) s₁.cursor.mark with
      cursor := p.cursor, keyAllowed := p.brokenOff } := by
  simp only [readPlain, hmark, hread, Bind.bind, Except.bind]
  rfl

/-- The scalar of a field is read up to the next line. -/
theorem readPiece_value (hfits : style.Fits text) (hheld : s.held = []) (hkeys : s.keys = [none])
    (hallowed : s.keyAllowed = false) (hindent : s.indent ≤ mark.column)
    (hcursor : s.cursor = ⟨style.written text ++ lineAt column rest, mark⟩)
    (hline : LineStart level column rest) (hlevel : level ≤ s.indent) :
    ∃ s', s.readPiece = .ok s' ∧ s'.held = [⟨.scalar style text, mark⟩] ∧ s'.keys = [none] ∧
      ∀ delivered, { s' with held := [], delivered }.AtLine column rest (s.indent :: s.outer) := by
  have hmark := markKey_of_not_allowed hallowed
  cases style with
  | block => exact hfits.elim
  | quoted =>
    have hread := Scalar.double_written mark (lineAt column rest) text
    rw [← hcursor] at hread
    refine ⟨_, (readPiece_quoted (by rw [hcursor]; rfl)).trans (readQuoted_eq hmark hread),
      ?_, hkeys, fun _ => atLine_of_lineAt rfl hkeys rfl hline rfl⟩
    simp [push, hheld, hcursor]
  | plain =>
    have hread := Scalar.plain_line hfits hindent hline hlevel
    rw [← hcursor, ← inFlow_of_keys hkeys] at hread
    refine ⟨_, (readPiece_plain hfits (by rw [hcursor]; rfl)).trans (readPlain_eq hmark hread),
      ?_, hkeys, fun _ => atLine_of_passed rfl hkeys rfl hline rfl rfl rfl⟩
    simp [push, hheld, hcursor]

/-- The key of a field is read up to its `:`, and remembered. -/
theorem readPiece_key (hfits : style.Fits text) (hkeys : s.keys = [none])
    (hallowed : s.keyAllowed = true) (hindent : s.indent ≤ mark.column)
    (hcursor : s.cursor = ⟨style.written text ++ ':' :: more, mark⟩)
    (hmore : endsWord more = true) :
    ∃ adjacentAt, s.readPiece = .ok { s with
      held := s.held ++ [⟨.scalar style text, mark⟩],
      keys := [some ⟨s.delivered + s.held.length, mark, false⟩],
      cursor := ⟨':' :: more, mark.along (style.written text).length⟩,
      keyAllowed := false, adjacentAt } := by
  have hmark := markKey_of_allowed hkeys hallowed
  rw [hcursor] at hmark
  cases style with
  | block => exact hfits.elim
  | quoted =>
    have hread := Scalar.double_written mark (':' :: more) text
    exact ⟨_, (readPiece_quoted (by rw [hcursor]; rfl)).trans (readQuoted_eq hmark hread)⟩
  | plain =>
    have hread := Scalar.plain_key hfits hindent hmore
    exact ⟨_, (readPiece_plain hfits (by rw [hcursor]; rfl)).trans (readPlain_eq hmark hread)⟩

end scalar

/-! ## Fields -/

section field

variable {front : List Token} {key : Token} {more : List Char} {name : String}

/-- A line with a field is read up to its `:`. -/
theorem AtLine.advance_key {pending : List Int} (hname : Value.IsKey name)
    (h : s.AtLine column (Value.entry name more) (pending ++ top :: outer))
    (hpending : ∀ x ∈ pending, (column : Int) < x) (htop : top ≤ column)
    (hmore : endsWord more = true) :
    ∃ s' mark, s.advance = .ok s' ∧ mark.column = column ∧
      s'.AtColon (blockEnds pending.length mark) ⟨.scalar (Value.styleOf name) name, mark⟩ more ∧
      s'.indent = top ∧ s'.outer = outer := by
  obtain ⟨mark, rfl, hadvance⟩ := h.advance hpending htop
  obtain ⟨adjacentAt, hkey⟩ := readPiece_key (s := { s with
      cursor := ⟨Value.entry name more, mark⟩, keyAllowed := true, indent := top, outer,
      held := blockEnds pending.length mark })
    (Value.styleOf_fits name) h.keys rfl htop rfl hmore
  refine ⟨_, mark, hadvance.trans hkey, rfl, ⟨rfl, rfl, rfl, rfl, ?_, htop, ?_⟩, rfl, rfl⟩
  · -- the `:` is on the line of the key and near enough to it
    have hlength : ((Value.styleOf name).written name).length ≤ 1024 := hname
    simp [Candidate.isStale, Mark.along, hlength]
  · exact Nat.le_add_right _ _

theorem readPiece_colon (hrest : s.cursor.rest = ':' :: more) (hmore : endsWord more = true) :
    s.readPiece = s.readValue := by
  simp [readPiece, hrest, startsWithIndicator, isValueIndicator, hmore]

/-- The token that begins a block at a column, if it lies further in. -/
def blockStart (indent : Int) (column : Nat) : List Token.Kind :=
  if indent < column then [.blockMappingStart] else []

/-- The blocks around a field at a column. -/
def nested (column : Nat) (indent : Int) (outer : List Int) : List Int :=
  if indent < column then column :: indent :: outer else indent :: outer

theorem blockStart_of_lt {indent : Int} (h : indent < column) :
    blockStart indent column = [.blockMappingStart] :=
  if_pos h

theorem blockStart_self : blockStart column column = [] :=
  if_neg (Int.lt_irrefl _)

theorem nested_of_lt {indent : Int} (h : indent < column) :
    nested column indent outer = (column : Int) :: indent :: outer :=
  if_pos h

theorem nested_self : nested column column outer = (column : Int) :: outer :=
  if_neg (Int.lt_irrefl _)

/-- The `:` makes the piece in front of it a key. -/
theorem AtColon.readValue (h : s.AtColon [] key more) :
    ∃ s', s.readValue = .ok s' ∧ s'.keys = [none] ∧
      s'.held.map Token.kind = blockStart s.indent key.mark.column ++ [.key, key.kind, .value] ∧
      ∀ delivered, { s' with held := [], delivered }.Behind more
        (nested key.mark.column s.indent s.outer) := by
  obtain ⟨cursor, delivered, held, keys, keyAllowed, adjacentAt, indent, outer⟩ := s
  obtain ⟨hheld, hkeys, -, hrest, -, hindent, hcolumn⟩ := h
  replace hkeys : keys = [some ⟨delivered, key.mark, false⟩] := hkeys
  cases hkeys
  cases hheld
  obtain ⟨text, mark⟩ := cursor
  cases hrest
  let s₀ : Scan := ⟨⟨':' :: more, mark⟩, delivered, [key], [some ⟨delivered, key.mark, false⟩],
    keyAllowed, adjacentAt, indent, outer⟩
  have hbehind : (key.mark.column : Int) < (mark.along 1).column := by
    rw [Mark.along_column]
    exact Int.ofNat_lt.mpr (Nat.lt_succ_of_le hcolumn)
  by_cases hblock : indent < key.mark.column
  · have hread : s₀.readValue = .ok ⟨⟨more, mark.along 1⟩, delivered,
        [⟨.blockMappingStart, mark⟩, ⟨.key, key.mark⟩, key, ⟨.value, mark⟩], [none], false,
        adjacentAt, key.mark.column, indent :: outer⟩ := by
      have hroll : ¬((key.mark.column : Int) ≤ indent) := Int.not_le_of_gt hblock
      simp [s₀, Scan.readValue, roll, insert, push, take, inFlow, flowLevel, hroll]
      rfl
    refine ⟨_, hread, rfl, ?_, fun _ => ⟨rfl, rfl, ?_, rfl, rfl, hbehind⟩⟩
    · rw [blockStart_of_lt hblock]
      rfl
    · exact (nested_of_lt hblock).symm
  · -- a key of the same block: nothing begins
    obtain rfl : indent = key.mark.column := Int.le_antisymm hindent (Int.not_lt.mp hblock)
    have hread : s₀.readValue = .ok ⟨⟨more, mark.along 1⟩, delivered,
        [⟨.key, key.mark⟩, key, ⟨.value, mark⟩], [none], false, adjacentAt, key.mark.column,
        outer⟩ := by
      simp [s₀, Scan.readValue, roll, insert, push, take, inFlow, flowLevel]
      rfl
    refine ⟨_, hread, rfl, ?_, fun _ => ⟨rfl, rfl, ?_, rfl, rfl, hbehind⟩⟩
    · rw [blockStart_self]
      rfl
    · exact nested_self.symm

theorem AtColon.advance (h : s.AtColon [] key more) (hmore : endsWord more = true) :
    s.advance = s.readValue := by
  have hflow : s.inFlow = false := inFlow_of_keys h.keys
  have hpassed : s.passBlanks = s := by
    obtain ⟨⟨text, mark⟩, delivered, held, keys, keyAllowed, adjacentAt, indent, outer⟩ := s
    obtain ⟨-, -, hallowed, hrest, -⟩ := h
    cases hallowed
    cases hrest
    rw [passBlanks, hflow, blanksFrom_cons (by decide) (by decide)]
  have hcolumn : s.indent ≤ s.cursor.mark.column :=
    Int.le_trans h.indent (Int.ofNat_le.mpr h.column)
  rw [advance_eq hpassed (TokenStream.dropStale_of_fresh h.fresh)
    (unroll_of_le hflow hcolumn), readPiece_colon h.rest hmore]

end field

/-! ## Empty records and the end of the text -/

section

variable {more : List Char}

theorem readPiece_open (hrest : s.cursor.rest = '\x7b' :: more) :
    s.readPiece = s.openFlow .flowMappingStart := by
  simp [readPiece, hrest, startsWithIndicator]

theorem readPiece_close (hrest : s.cursor.rest = '\x7d' :: more) :
    s.readPiece = s.closeFlow .flowMappingEnd := by
  simp [readPiece, hrest, startsWithIndicator]

/-- Behind a `:`, a brace is opened. -/
theorem Behind.advance_open (h : s.Behind (' ' :: '\x7b' :: more) stack) :
    ∃ mark : Mark, s.advance = .ok { s with
      cursor := ⟨more, mark.along 1⟩, held := [⟨.flowMappingStart, mark⟩], keys := [none, none],
      keyAllowed := true } := by
  obtain ⟨mark, -, hadvance⟩ :=
    h.advance fun _ => blanksFrom_cons (by decide) (by decide) false
  obtain ⟨cursor, delivered, held, keys, keyAllowed, adjacentAt, indent, outer⟩ := s
  obtain ⟨hheld, hkeys, -, hallowed, -, -⟩ := h
  cases hheld
  cases hkeys
  cases hallowed
  exact ⟨mark, hadvance.trans (readPiece_open rfl)⟩

/-- A brace that was opened is closed. -/
theorem advance_close (hheld : s.held = []) (hkeys : s.keys = [none, none])
    (hcursor : s.cursor = ⟨'\x7d' :: more, mark⟩) :
    s.advance = .ok { s with
      cursor := ⟨more, mark.along 1⟩, held := [⟨.flowMappingEnd, mark⟩], keys := [none],
      keyAllowed := false } := by
  obtain ⟨cursor, delivered, held, keys, keyAllowed, adjacentAt, indent, outer⟩ := s
  cases hheld
  cases hkeys
  cases hcursor
  rw [advance_eq rfl rfl rfl, readPiece_close rfl]
  rfl

/-- At the end of the text, all blocks are ended. -/
theorem AtLine.advance_finish {pending : List Int} (h : s.AtLine 0 [] (pending ++ [-1]))
    (hpending : ∀ x ∈ pending, -1 < x) :
    ∃ mark : Mark, s.advance = .ok { s with
      cursor := ⟨[], mark⟩, held := blockEnds pending.length mark ++ [⟨.streamEnd, mark⟩],
      keyAllowed := false, indent := -1, outer := [] } := by
  obtain ⟨mark, hcolumn, hpassed⟩ := h.passed
  obtain ⟨cursor, delivered, held, keys, keyAllowed, adjacentAt, indent, outer⟩ := s
  obtain ⟨hheld, hkeys, hstack, -⟩ := h
  cases hheld
  cases hkeys
  have hblanks : Scan.passBlanks
      ⟨cursor, delivered, [], [none], keyAllowed, adjacentAt, indent, outer⟩ =
      ⟨⟨[], mark⟩, delivered, [], [none], true, adjacentAt, indent, outer⟩ := by
    simp [passBlanks, inFlow, flowLevel, hpassed]
  -- a line at column 0 does not end the block at that column, but the end of the text does
  have htwice := unrollFrom_unrollFrom mark (show (-1 : Int) ≤ 0 by decide) outer indent []
  rw [unrollFrom_append mark hstack hpending (Int.le_refl _)] at htwice
  refine ⟨mark, ?_⟩
  rw [advance_eq hblanks rfl rfl]
  simp [readPiece, endStream, unroll, inFlow, flowLevel, hcolumn, htwice]
  rfl

end

end Scan

end Interconnect.Yaml
