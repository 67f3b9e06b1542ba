import Interconnect.Command
import Interconnect.Proofs.Files

/-! # Delivering a topology

    A run that has its topology writes the document and then the dot text, each where it is
    asked for. The first that cannot be written ends the run.

    `deliver_delivers` says what this comes to: when the run succeeds, what it reports, and
    what can be read from the files afterwards.
-/

namespace Interconnect.Command

/-! ## The files asked for -/

/-- A file is written, if one is asked for: it could be opened, and its place now holds
    the text. -/
inductive Writes (text : String) : Option String → FileSystem → FileSystem → Prop
  | unasked (fs : FileSystem) : Writes text none fs fs
  | written {fs : FileSystem} {path : String} {place : List String} :
      fs.openForWriting path = .ok place →
      Writes text (some path) fs (fs.put place (.file text.toUTF8))

/-- The report that a file could not be written. -/
def cannotWrite (path : String) (e : OsError) (records : List Journal.Record) : Outcome :=
  .failed (Outcome.because s!"cannot write {path}" e.message) records

/-- What a run comes to once it has a topology, from the files that it finds then. -/
structure Request.Delivers (r : Request) (t : Topology) (start : FileSystem) (o : Outcome)
    (after : FileSystem) : Prop where
  /-- It succeeds exactly if the document and then the dot text can be written. -/
  exit_eq_zero_iff : o.exit = 0 ↔
    ∃ middle last, Writes t.document r.output start middle ∧ Writes t.dot r.dot middle last
  /-- Otherwise it is a file asked for that is reported, never an emission. -/
  reported : (o.exit = 0 ∧ o.stderr = "") ∨
    ∃ path e, (r.output = some path ∨ r.dot = some path) ∧ o = cannotWrite path e o.records
  /-- A run that succeeds has written what was asked for. -/
  written : o.exit = 0 →
    ∃ middle, Writes t.document r.output start middle ∧ Writes t.dot r.dot middle after
  /-- If the document cannot be written, the dot text is not attempted. -/
  output_refused : ∀ path e, r.output = some path → start.openForWriting path = .error e →
    o = cannotWrite path e o.records ∧ after = start
  dot_refused : ∀ middle path e, Writes t.document r.output start middle →
    r.dot = some path → middle.openForWriting path = .error e →
    o = cannotWrite path e o.records ∧ after = middle
  /-- The dot text can be read where it was written. -/
  dot_holds : ∀ path, o.exit = 0 → r.dot = some path → after.readFile path = .ok t.dot.toUTF8
  /-- So can the document, also when the dot text was refused. -/
  output_holds : ∀ path place middle, r.output = some path →
    start.openForWriting path = .ok place → Writes t.document r.output start middle →
    (∀ other, r.dot = some other → middle.openForWriting other ≠ .ok place) →
    after.readFile path = .ok t.document.toUTF8
  /-- A dot text that was asked for at the same place takes that of the document. -/
  output_overwritten : ∀ path place middle other, r.output = some path →
    start.openForWriting path = .ok place → Writes t.document r.output start middle →
    r.dot = some other → middle.openForWriting other = .ok place →
    after.readFile path = .ok t.dot.toUTF8
  /-- The dot text is printed exactly if no file is asked for. -/
  stdout_eq_dot_iff : o.stdout = t.dot ↔ r.output = none ∧ r.dot = none
  stdout_eq_empty : ¬ (r.output = none ∧ r.dot = none) → o.stdout = ""

/-! ## Writing the files asked for -/

namespace Writes

variable {text : String} {asked : Option String} {fs fs' fs'' : FileSystem} {path : String}
  {place : List String}

theorem unique (h : Writes text asked fs fs') (h' : Writes text asked fs fs'') : fs' = fs'' := by
  cases h with
  | unasked =>
    cases h'
    rfl
  | written hopen =>
    cases h' with
    | written hopen' => rw [Except.ok.inj (hopen.symm.trans hopen')]

/-- A file that cannot be opened is not written. -/
theorem not_of_error {e : OsError} (herror : fs.openForWriting path = .error e) :
    ¬ Writes text (some path) fs fs' := by
  rintro ⟨⟩
  next hopen =>
    rw [herror] at hopen
    cases hopen

theorem exists_place (h : Writes text (some path) fs fs') :
    ∃ place, fs.openForWriting path = .ok place ∧ fs' = fs.put place (.file text.toUTF8) := by
  cases h with
  | written hopen => exact ⟨_, hopen, rfl⟩

theorem sameDirectories (h : Writes text asked fs fs') : fs.SameDirectories fs' := by
  cases h with
  | unasked => exact .refl fs
  | written hopen => exact .put_file (FileSystem.entry?_ne_of_openForWriting hopen) _

/-- What was written is there. -/
theorem entry (h : Writes text (some path) fs fs') (hopen : fs.openForWriting path = .ok place) :
    fs'.entry? place = some (.file text.toUTF8) := by
  obtain ⟨place', hopen', rfl⟩ := h.exists_place
  obtain rfl := Except.ok.inj (hopen.symm.trans hopen')
  have hfree := FileSystem.entry?_ne_of_openForWriting hopen
  exact FileSystem.entry?_put_self (FileSystem.ne_nil_of_entry?_ne hfree) _

/-- What is elsewhere stays. -/
theorem entry_of_ne (h : Writes text asked fs fs')
    (hother : ∀ other, asked = some other → fs.openForWriting other ≠ .ok place) :
    fs'.entry? place = fs.entry? place := by
  cases h with
  | unasked => rfl
  | written hopen =>
    apply FileSystem.entry?_put_of_ne
    rintro rfl
    exact hother _ rfl hopen

theorem readFile (h : Writes text (some path) fs fs') : fs'.readFile path = .ok text.toUTF8 := by
  obtain ⟨place, hopen, -⟩ := h.exists_place
  exact FileSystem.readFile_eq_ok (h.sameDirectories.openForWriting hopen) (h.entry hopen)

end Writes

/-! ## Steps on a machine -/

/-- A run goes on from where its first step left the state. -/
theorem run_bind_of_eq {S α β : Type} {first : StateM S α} {next : α → StateM S β} {s s' : S}
    {a : α} (h : first.run s = (a, s')) : (first >>= next).run s = (next a).run s' := by
  rw [StateT.run_bind, h]
  rfl

theorem run_readFile (path : String) (before : Machine) :
    (Machine.host.readFile path).run before = (before.files.readFile path, before) :=
  rfl

/-- A file is written at the place where it is opened. -/
theorem run_writeFile_of_ok {path : String} {place : List String} {before : Machine}
    (text : String) (h : before.files.openForWriting path = .ok place) :
    (Machine.host.writeFile path text).run before =
      (.ok (), { before with files := before.files.put place (.file text.toUTF8) }) := by
  show (_, _) = _
  rw [h]
  rfl

theorem run_writeFile_of_error {path : String} {e : OsError} {before : Machine} (text : String)
    (h : before.files.openForWriting path = .error e) :
    (Machine.host.writeFile path text).run before = (.error e, before) := by
  show (_, _) = _
  rw [h]
  rfl

/-! ## Delivering a topology -/

/-- A dot text ends with a closing brace. -/
theorem dot_ne_empty (t : Topology) : t.dot ≠ "" := by
  unfold Topology.dot
  simp

namespace Request

section attempts

variable {path text : String} {rest : List (String × String)} {before : Machine}

theorem run_writeAll_of_ok {place : List String}
    (h : before.files.openForWriting path = .ok place) :
    (writeAll Machine.host ((path, text) :: rest)).run before =
      (writeAll Machine.host rest).run
        { before with files := before.files.put place (.file text.toUTF8) } := by
  rw [writeAll, run_bind_of_eq (run_writeFile_of_ok text h)]

theorem run_writeAll_of_error {e : OsError} (h : before.files.openForWriting path = .error e) :
    (writeAll Machine.host ((path, text) :: rest)).run before = (some (path, e), before) := by
  rw [writeAll, run_bind_of_eq (run_writeFile_of_error text h)]
  rfl

/-- A file that may be asked for is written, and the rest is attempted; or it ends the
    attempts. -/
theorem writeAll_cases (asked : Option String) (text : String) (rest : List (String × String))
    (before : Machine) :
    let files := (asked.toList.map fun path => (path, text)) ++ rest
    let run := (writeAll Machine.host files).run before
    (∃ fs, Writes text asked before.files fs ∧
      run = (writeAll Machine.host rest).run { before with files := fs }) ∨
    ∃ path e, asked = some path ∧ before.files.openForWriting path = .error e ∧
      run = (some (path, e), before) := by
  intro files run
  cases asked with
  | none => exact .inl ⟨before.files, .unasked _, rfl⟩
  | some path =>
    cases hopen : before.files.openForWriting path with
    | ok place => exact .inl ⟨_, .written hopen, run_writeAll_of_ok hopen⟩
    | error e => exact .inr ⟨path, e, rfl, hopen, run_writeAll_of_error hopen⟩

end attempts

variable {r : Request} {t : Topology} {before after : Machine} {records : List Journal.Record}

theorem run_deliver_of_written (h : (writeAll Machine.host (r.outputs t)).run before = (none, after)) :
    (r.deliver Machine.host t records).run before =
      ({ stdout := if r.output.isNone && r.dot.isNone then t.dot else "", records }, after) := by
  unfold deliver
  rw [run_bind_of_eq h]
  rfl

theorem run_deliver_of_refused {path : String} {e : OsError}
    (h : (writeAll Machine.host (r.outputs t)).run before = (some (path, e), after)) :
    (r.deliver Machine.host t records).run before = (cannotWrite path e records, after) := by
  unfold deliver
  rw [run_bind_of_eq h]
  rfl

/-- How the delivery of a topology ends. -/
theorem deliver_cases (r : Request) (t : Topology) (records : List Journal.Record)
    (before : Machine) :
    let run := (r.deliver Machine.host t records).run before
    (∃ middle last, Writes t.document r.output before.files middle ∧
      Writes t.dot r.dot middle last ∧
      run = ({ stdout := if r.output.isNone && r.dot.isNone then t.dot else "", records },
        { before with files := last })) ∨
    (∃ path e, r.output = some path ∧ before.files.openForWriting path = .error e ∧
      run = (cannotWrite path e records, before)) ∨
    ∃ middle path e, Writes t.document r.output before.files middle ∧ r.dot = some path ∧
      middle.openForWriting path = .error e ∧
      run = (cannotWrite path e records, { before with files := middle }) := by
  intro run
  rcases writeAll_cases r.output t.document (r.dot.toList.map fun path => (path, t.dot)) before with
    ⟨middle, hmiddle, hfirst⟩ | ⟨path, e, hpath, hopen, hfirst⟩
  · have hsecond := writeAll_cases r.dot t.dot [] { before with files := middle }
    rw [List.append_nil] at hsecond
    rcases hsecond with ⟨last, hlast, hsecond⟩ | ⟨path, e, hpath, hopen, hsecond⟩
    · exact .inl ⟨middle, last, hmiddle, hlast, run_deliver_of_written (hfirst.trans hsecond)⟩
    · exact .inr (.inr ⟨middle, path, e, hmiddle, hpath, hopen,
        run_deliver_of_refused (hfirst.trans hsecond)⟩)
  · exact .inr (.inl ⟨path, e, hpath, hopen, run_deliver_of_refused hfirst⟩)

/-- All files asked for are written. -/
theorem delivers_of_written {start middle last : FileSystem}
    (hmiddle : Writes t.document r.output start middle) (hlast : Writes t.dot r.dot middle last) :
    r.Delivers t start
      { stdout := if r.output.isNone && r.dot.isNone then t.dot else "", records } last where
  exit_eq_zero_iff := iff_of_true rfl ⟨middle, last, hmiddle, hlast⟩
  reported := .inl ⟨rfl, rfl⟩
  written := fun _ => ⟨middle, hmiddle, hlast⟩
  output_refused := by
    intro path e hpath hopen
    rw [hpath] at hmiddle
    exact absurd hmiddle (Writes.not_of_error hopen)
  dot_refused := by
    intro middle' path e hmiddle' hpath hopen
    obtain rfl := hmiddle.unique hmiddle'
    rw [hpath] at hlast
    exact absurd hlast (Writes.not_of_error hopen)
  dot_holds := by
    intro path _ hpath
    rw [hpath] at hlast
    exact hlast.readFile
  output_holds := by
    intro path place middle' hpath hopen hmiddle' hother
    obtain rfl := hmiddle.unique hmiddle'
    rw [hpath] at hmiddle
    have hstay := hmiddle.sameDirectories.openForWriting hopen
    refine FileSystem.readFile_eq_ok (hlast.sameDirectories.openForWriting hstay) ?_
    -- the dot text went elsewhere, so that the document is still there
    rw [hlast.entry_of_ne hother]
    exact hmiddle.entry hopen
  output_overwritten := by
    intro path place middle' other hpath hopen hmiddle' hdot hother
    obtain rfl := hmiddle.unique hmiddle'
    have hstay := hmiddle.sameDirectories.openForWriting hopen
    refine FileSystem.readFile_eq_ok (hlast.sameDirectories.openForWriting hstay) ?_
    rw [hdot] at hlast
    exact hlast.entry hother
  stdout_eq_dot_iff := by
    rw [← Option.isNone_iff_eq_none, ← Option.isNone_iff_eq_none, ← Bool.and_eq_true]
    dsimp only
    split
    · next hnone => exact iff_of_true rfl hnone
    · next hsome => exact iff_of_false (dot_ne_empty t).symm hsome
  stdout_eq_empty := by
    rw [← Option.isNone_iff_eq_none, ← Option.isNone_iff_eq_none, ← Bool.and_eq_true]
    exact fun hsome => if_neg hsome

/-- The document is refused, and the dot text is not attempted. -/
theorem delivers_of_output_refused {start : FileSystem} {path : String} {e : OsError}
    (hpath : r.output = some path) (hopen : start.openForWriting path = .error e) :
    r.Delivers t start (cannotWrite path e records) start := by
  have hnone : ∀ middle, ¬ Writes t.document r.output start middle := by
    intro middle hmiddle
    rw [hpath] at hmiddle
    exact Writes.not_of_error hopen hmiddle
  have hasked : ¬ (r.output = none ∧ r.dot = none) := by
    rw [hpath]
    nofun
  refine {
    exit_eq_zero_iff := iff_of_false nofun fun ⟨middle, _, hmiddle, _⟩ => hnone middle hmiddle
    reported := .inr ⟨path, e, .inl hpath, rfl⟩
    written := nofun
    output_refused := ?_
    dot_refused := fun middle _ _ hmiddle => absurd hmiddle (hnone middle)
    dot_holds := nofun
    output_holds := fun _ _ middle _ _ hmiddle => absurd hmiddle (hnone middle)
    output_overwritten := fun _ _ middle _ _ _ hmiddle => absurd hmiddle (hnone middle)
    stdout_eq_dot_iff := iff_of_false (dot_ne_empty t).symm hasked
    stdout_eq_empty := fun _ => rfl }
  intro path' e' hpath' hopen'
  obtain rfl := Option.some.inj (hpath.symm.trans hpath')
  obtain rfl := Except.error.inj (hopen.symm.trans hopen')
  exact ⟨rfl, rfl⟩

/-- The dot text is refused, and the document, if it was asked for, stays. -/
theorem delivers_of_dot_refused {start middle : FileSystem} {path : String} {e : OsError}
    (hmiddle : Writes t.document r.output start middle) (hpath : r.dot = some path)
    (hopen : middle.openForWriting path = .error e) :
    r.Delivers t start (cannotWrite path e records) middle := by
  have hasked : ¬ (r.output = none ∧ r.dot = none) := by
    rw [hpath]
    nofun
  refine {
    exit_eq_zero_iff := iff_of_false nofun ?_
    reported := .inr ⟨path, e, .inr hpath, rfl⟩
    written := nofun
    output_refused := ?_
    dot_refused := ?_
    dot_holds := nofun
    output_holds := ?_
    output_overwritten := ?_
    stdout_eq_dot_iff := iff_of_false (dot_ne_empty t).symm hasked
    stdout_eq_empty := fun _ => rfl }
  · rintro ⟨middle', last, hmiddle', hlast⟩
    obtain rfl := hmiddle.unique hmiddle'
    rw [hpath] at hlast
    exact Writes.not_of_error hopen hlast
  · -- the document was not what could not be written
    intro path' e' hpath' hopen'
    rw [hpath'] at hmiddle
    exact absurd hmiddle (Writes.not_of_error hopen')
  · intro middle' path' e' hmiddle' hpath' hopen'
    obtain rfl := hmiddle.unique hmiddle'
    obtain rfl := Option.some.inj (hpath.symm.trans hpath')
    obtain rfl := Except.error.inj (hopen.symm.trans hopen')
    exact ⟨rfl, rfl⟩
  · intro path' place middle' hpath' _ _ _
    rw [hpath'] at hmiddle
    exact hmiddle.readFile
  · intro path' place middle' other _ _ hmiddle' hdot hother
    obtain rfl := hmiddle.unique hmiddle'
    obtain rfl := Option.some.inj (hpath.symm.trans hdot)
    rw [hopen] at hother
    cases hother

/-! ## Main statement -/

/-- **Delivery** reports nothing but a file that could not be written. -/
theorem deliver_delivers (r : Request) (t : Topology) (records : List Journal.Record)
    (before : Machine) :
    let run := (r.deliver Machine.host t records).run before
    run.1.records = records ∧ run.1.usage = false ∧
      r.Delivers t before.files run.1 run.2.files := by
  intro run
  rcases r.deliver_cases t records before with
    ⟨middle, last, hmiddle, hlast, hrun⟩ | ⟨path, e, hpath, hopen, hrun⟩ |
      ⟨middle, path, e, hmiddle, hpath, hopen, hrun⟩
  · replace hrun : run = _ := hrun
    rw [hrun]
    exact ⟨rfl, rfl, delivers_of_written hmiddle hlast⟩
  · replace hrun : run = _ := hrun
    rw [hrun]
    exact ⟨rfl, rfl, delivers_of_output_refused hpath hopen⟩
  · replace hrun : run = _ := hrun
    rw [hrun]
    exact ⟨rfl, rfl, delivers_of_dot_refused hmiddle hpath hopen⟩

end Request

end Interconnect.Command
