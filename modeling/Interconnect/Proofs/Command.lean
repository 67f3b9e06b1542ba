import Interconnect.Proofs.Command.Delivery
import Interconnect.Proofs.Emission

/-! # Runs of the command

    A run obtains a configuration, lists the endpoints, synthesizes, emits what is configured
    and writes what is asked for. `run_ends` is the main statement, about every request and
    every machine that it is run on:

    * Without a topology, nothing is printed and nothing is written. The run fails, or is cut
      short: by a choice that is left empty in a configuration file, or by a fault.
    * With one, only the files asked for decide on success. The first that cannot be written
      ends the run; those that were written can be read.
    * What becomes of emissions is reported on the side. They can stand in the way of a file,
      but are not themselves a reason to fail.
-/

namespace Interconnect.Command

/-! ## The way to a topology -/

namespace Request

/-- The configuration that a request obtains from the files at hand. -/
inductive Obtains (r : Request) (files : FileSystem) : Configuration → Prop
  | file {path : String} {contents : ByteArray} {c : Configuration} :
      r.config = some path → files.readFile path = .ok contents →
      Configuration.ofContents path contents = .ok c → r.Obtains files (r.adjust c)
  | shape : r.config = none → r.shape.isSome → r.Obtains files (r.adjust {})

/-- A request comes to a topology. -/
structure Reaches (r : Request) (files : FileSystem) (c : Configuration)
    (endpoints : List Endpoint) (t : Topology) : Prop where
  obtained : r.Obtains files c
  listed : r.endpoints c = .ok endpoints
  synthesized : synthesize c endpoints = .ok t

/-- A request stops the program before it comes to a topology. -/
inductive CutShort (r : Request) (files : FileSystem) : Prop
  | reading {path : String} {contents : ByteArray} {e : ConfigurationError} :
      r.config = some path → files.readFile path = .ok contents →
      Configuration.ofContents path contents = .error e → e.isFatal → r.CutShort files
  | listing {c : Configuration} {f : Fault} :
      r.Obtains files c → r.endpoints c = .error f → r.CutShort files
  | synthesis {c : Configuration} {endpoints : List Endpoint} {f : Fault} :
      r.Obtains files c → r.endpoints c = .ok endpoints →
      synthesize c endpoints = .error (.fault f) → r.CutShort files

end Request

/-- A synthesis on a machine, with the emissions that are configured. -/
def synthesizeOn (c : Configuration) (endpoints : List Endpoint) (before : Machine) :
    Emitted Unit × Machine :=
  (synthesizeWith Machine.host c endpoints none).run before

/-- What a request comes to on a machine. -/
structure Request.Ends (r : Request) (before : Machine) (o : Outcome) (after : Machine) :
    Prop where
  /-- Without a topology, nothing is printed and nothing changes. -/
  unreached : (∀ c endpoints t, ¬ r.Reaches before.files c endpoints t) →
    o.stdout = "" ∧ after = before ∧
      (r.CutShort before.files → o.exit = 101) ∧ (¬ r.CutShort before.files → o.exit = 1)
  /-- With one, emissions are made and reported on the side; the rest is up to the files. -/
  reached : ∀ c endpoints t, r.Reaches before.files c endpoints t →
    let emitted := synthesizeOn c endpoints before
    o.records = emitted.1.records ∧ r.Delivers t emitted.2.files o after.files
  /-- The words were not refused. -/
  accepted : o.usage = false

/-! ## Obtaining a configuration -/

namespace Request

variable {r : Request} {before : Machine}

theorem Obtains.unique {files : FileSystem} {c c' : Configuration} (h : r.Obtains files c)
    (h' : r.Obtains files c') : c = c' := by
  cases h with
  | file hpath hread hconfiguration =>
    cases h' with
    | file hpath' hread' hconfiguration' =>
      obtain rfl := Option.some.inj (hpath.symm.trans hpath')
      obtain rfl := Except.ok.inj (hread.symm.trans hread')
      rw [Except.ok.inj (hconfiguration.symm.trans hconfiguration')]
    | shape hnone hshape =>
      rw [hnone] at hpath
      cases hpath
  | shape hnone hshape =>
    cases h' with
    | file hpath hread hconfiguration =>
      rw [hnone] at hpath
      cases hpath
    | shape hnone' hshape' => rfl

/-- With a file given, the configuration comes from it. -/
theorem Obtains.exists_contents {files : FileSystem} {path : String} {c : Configuration}
    (h : r.Obtains files c) (hconfig : r.config = some path) :
    ∃ contents base, files.readFile path = .ok contents ∧
      Configuration.ofContents path contents = .ok base := by
  cases h with
  | file hpath hread hcontents =>
    obtain rfl := Option.some.inj (hpath.symm.trans hconfig)
    exact ⟨_, _, hread, hcontents⟩
  | shape hnone _ =>
    rw [hconfig] at hnone
    cases hnone

end Request

/-- A run that ends before there is a topology: cut short, or failed. -/
structure Outcome.Unreached (o : Outcome) (cutShort : Prop) : Prop where
  stdout : o.stdout = ""
  usage : o.usage = false
  exit_of_cutShort : cutShort → o.exit = 101
  exit_of_not_cutShort : ¬ cutShort → o.exit = 1

namespace Outcome.Unreached

variable {cutShort : Prop} {message : String}

theorem aborted (h : cutShort) : (Outcome.aborted message).Unreached cutShort where
  stdout := rfl
  usage := rfl
  exit_of_cutShort := fun _ => rfl
  exit_of_not_cutShort := fun hnot => absurd h hnot

theorem failed {records : List Journal.Record} (h : ¬ cutShort) :
    (Outcome.failed message records).Unreached cutShort where
  stdout := rfl
  usage := rfl
  exit_of_cutShort := fun hcut => absurd hcut h
  exit_of_not_cutShort := fun _ => rfl

end Outcome.Unreached

namespace Request

variable {r : Request} {before : Machine}

/-- A request that obtains no configuration is cut short only by what it reads. -/
theorem not_cutShort_of_not_obtains (hnone : ∀ c, ¬ r.Obtains before.files c)
    (h : ∀ path contents e, r.config = some path → before.files.readFile path = .ok contents →
      Configuration.ofContents path contents = .error e → ¬ e.isFatal) :
    ¬ r.CutShort before.files := by
  rintro (⟨hpath, hread, herror, hfatal⟩ | ⟨hobtains, -⟩ | ⟨hobtains, -, -⟩)
  · exact h _ _ _ hpath hread herror hfatal
  · exact hnone _ hobtains
  · exact hnone _ hobtains

/-- What obtaining a configuration comes to; nothing is written by it. -/
inductive Starts (r : Request) (before : Machine) : Except Outcome Configuration × Machine → Prop
  | obtained {c : Configuration} : r.Obtains before.files c → r.Starts before (.ok c, before)
  | ended {o : Outcome} : (∀ c, ¬ r.Obtains before.files c) →
      o.Unreached (r.CutShort before.files) → r.Starts before (.error o, before)

/-- Without a file, a shape has to be given. -/
theorem starts_of_none (hconfig : r.config = none) :
    r.Starts before ((r.configuration Machine.host).run before) := by
  unfold configuration
  rw [hconfig]
  dsimp only
  by_cases hshape : r.shape.isSome
  · rw [if_pos hshape]
    exact .obtained (.shape hconfig hshape)
  · rw [if_neg hshape]
    have hnone : ∀ c, ¬ r.Obtains before.files c := by
      rintro _ (⟨hpath, -, -⟩ | ⟨-, hsome⟩)
      · rw [hconfig] at hpath
        cases hpath
      · exact hshape hsome
    refine .ended hnone (.failed (not_cutShort_of_not_obtains hnone ?_))
    intro path _ _ hpath
    rw [hconfig] at hpath
    cases hpath

section file

variable {path : String} (hconfig : r.config = some path)

include hconfig

theorem run_configuration_of_ok {c : Configuration}
    (hfile : (Configuration.ofFile Machine.host path).run before = (.ok c, before)) :
    (r.configuration Machine.host).run before = (.ok (r.adjust c), before) := by
  unfold configuration
  rw [hconfig]
  dsimp only
  rw [run_bind_of_eq hfile]
  rfl

theorem run_configuration_of_error {e : ConfigurationError}
    (hfile : (Configuration.ofFile Machine.host path).run before = (.error e, before)) :
    (r.configuration Machine.host).run before =
      (.error (if e.isFatal then .aborted e.message else .failed e.message []), before) := by
  unfold configuration
  rw [hconfig]
  dsimp only
  rw [run_bind_of_eq hfile]
  rfl

/-- A file that cannot be read ends the run. -/
theorem starts_of_unread {failure : FileSystem.ReadFailure}
    (hread : before.files.readFile path = .error failure) :
    r.Starts before ((r.configuration Machine.host).run before) := by
  have hnone : ∀ c, ¬ r.Obtains before.files c := by
    intro c hobtains
    obtain ⟨contents, base, hread', -⟩ := hobtains.exists_contents hconfig
    rw [hread] at hread'
    cases hread'
  have hcut : ¬ r.CutShort before.files := by
    refine not_cutShort_of_not_obtains hnone ?_
    intro path' contents e hpath hread'
    obtain rfl := Option.some.inj (hconfig.symm.trans hpath)
    rw [hread] at hread'
    cases hread'
  have hfile : ∃ text, (Configuration.ofFile Machine.host path).run before =
      (.error (.file text), before) := by
    unfold Configuration.ofFile
    rw [StateT.run_bind, run_readFile, hread]
    cases failure with
    | opening e => exact ⟨_, rfl⟩
    | reading e => exact ⟨_, rfl⟩
  obtain ⟨text, hfile⟩ := hfile
  rw [run_configuration_of_error hconfig hfile]
  exact .ended hnone (.failed hcut)

/-- The contents of a file that is read are a configuration, or end the run. -/
theorem starts_of_read {contents : ByteArray}
    (hread : before.files.readFile path = .ok contents) :
    r.Starts before ((r.configuration Machine.host).run before) := by
  have hfile : (Configuration.ofFile Machine.host path).run before =
      (Configuration.ofContents path contents, before) := by
    unfold Configuration.ofFile
    rw [StateT.run_bind, run_readFile, hread]
    rfl
  cases hcontents : Configuration.ofContents path contents with
  | ok c =>
    rw [hcontents] at hfile
    rw [run_configuration_of_ok hconfig hfile]
    exact .obtained (.file hconfig hread hcontents)
  | error e =>
    rw [hcontents] at hfile
    rw [run_configuration_of_error hconfig hfile]
    have hnone : ∀ c, ¬ r.Obtains before.files c := by
      intro c hobtains
      obtain ⟨contents', base, hread', hbase⟩ := hobtains.exists_contents hconfig
      obtain rfl := Except.ok.inj (hread.symm.trans hread')
      rw [hcontents] at hbase
      cases hbase
    by_cases hfatal : e.isFatal
    · rw [if_pos hfatal]
      exact .ended hnone (.aborted (.reading hconfig hread hcontents hfatal))
    · rw [if_neg hfatal]
      refine .ended hnone (.failed (not_cutShort_of_not_obtains hnone ?_))
      -- there is but one error that these contents can give
      intro path' contents' e' hpath hread' herror
      obtain rfl := Option.some.inj (hconfig.symm.trans hpath)
      obtain rfl := Except.ok.inj (hread.symm.trans hread')
      obtain rfl := Except.error.inj (hcontents.symm.trans herror)
      exact hfatal

end file

theorem starts (r : Request) (before : Machine) :
    r.Starts before ((r.configuration Machine.host).run before) := by
  cases hconfig : r.config with
  | none => exact starts_of_none hconfig
  | some path =>
    cases hread : before.files.readFile path with
    | error failure => exact starts_of_unread hconfig hread
    | ok contents => exact starts_of_read hconfig hread

/-! ## Performing a request -/

theorem Reaches.unique {files : FileSystem} {c c' : Configuration}
    {endpoints endpoints' : List Endpoint} {t t' : Topology} (h : r.Reaches files c endpoints t)
    (h' : r.Reaches files c' endpoints' t') : c = c' ∧ endpoints = endpoints' ∧ t = t' := by
  obtain rfl := h.obtained.unique h'.obtained
  obtain rfl := Except.ok.inj (h.listed.symm.trans h'.listed)
  exact ⟨rfl, rfl, Except.ok.inj (h.synthesized.symm.trans h'.synthesized)⟩

/-- A request whose synthesis is refused is not cut short. -/
theorem not_cutShort_of_refused {files : FileSystem} {c : Configuration}
    {endpoints : List Endpoint} {e : SynthesisError} (hobtains : r.Obtains files c)
    (hlisted : r.endpoints c = .ok endpoints) (hrefused : synthesize c endpoints = .error e)
    (h : ∀ f, e ≠ .fault f) : ¬ r.CutShort files := by
  rintro (⟨hpath, hread, herror, -⟩ | ⟨hobtains', hfault⟩ | ⟨hobtains', hlisted', hfault⟩)
  · obtain ⟨contents, base, hread', hbase⟩ := hobtains.exists_contents hpath
    obtain rfl := Except.ok.inj (hread.symm.trans hread')
    rw [herror] at hbase
    cases hbase
  · obtain rfl := hobtains.unique hobtains'
    rw [hlisted] at hfault
    cases hfault
  · obtain rfl := hobtains.unique hobtains'
    obtain rfl := Except.ok.inj (hlisted.symm.trans hlisted')
    exact h _ (Except.error.inj (hrefused.symm.trans hfault))

/-- A request that ends without a topology leaves the machine as it was. -/
theorem ends_of_unreached {o : Outcome}
    (hnone : ∀ c endpoints t, ¬ r.Reaches before.files c endpoints t)
    (h : o.Unreached (r.CutShort before.files)) : r.Ends before o before where
  unreached := fun _ => ⟨h.stdout, rfl, h.exit_of_cutShort, h.exit_of_not_cutShort⟩
  reached := fun c endpoints t hreaches => absurd hreaches (hnone c endpoints t)
  accepted := h.usage

section obtained

variable {c : Configuration} {endpoints : List Endpoint}
  (hstart : (r.configuration Machine.host).run before = (.ok c, before))

include hstart

theorem run_perform_of_unlisted {f : Fault} (hlisted : r.endpoints c = .error f) :
    (r.perform Machine.host).run before = (.aborted f.message, before) := by
  unfold perform
  rw [run_bind_of_eq hstart]
  dsimp only
  rw [hlisted]
  rfl

/-- A synthesis that faults cuts the run short, and one that is refused fails it. -/
theorem perform_of_refused {e : SynthesisError} (hobtains : r.Obtains before.files c)
    (hlisted : r.endpoints c = .ok endpoints) (hrefused : synthesize c endpoints = .error e) :
    ∃ o, o.Unreached (r.CutShort before.files) ∧
      (r.perform Machine.host).run before = (o, before) := by
  unfold perform
  rw [run_bind_of_eq hstart]
  dsimp only
  rw [hlisted]
  dsimp only
  rw [run_bind_of_eq (run_synthesizeWith_of_error hrefused before)]
  -- only a fault is passed on as one; all other refusals are reported
  by_cases hfault : ∃ f, e = .fault f
  · obtain ⟨f, rfl⟩ := hfault
    exact ⟨_, .aborted (.synthesis hobtains hlisted hrefused), rfl⟩
  · have hcut := not_cutShort_of_refused hobtains hlisted hrefused fun f hf => hfault ⟨f, hf⟩
    cases e with
    | fault f => exact absurd ⟨f, rfl⟩ hfault
    | _ => exact ⟨_, .failed hcut, rfl⟩

/-- A topology is delivered on the machine that its emissions left. -/
theorem run_perform_of_ok {t : Topology} (hlisted : r.endpoints c = .ok endpoints)
    (hsynthesized : synthesize c endpoints = .ok t) :
    (r.perform Machine.host).run before =
      (r.deliver Machine.host t (synthesizeOn c endpoints before).1.records).run
        (synthesizeOn c endpoints before).2 := by
  unfold perform synthesizeOn
  rw [run_bind_of_eq hstart]
  dsimp only
  rw [hlisted]
  dsimp only
  rw [run_bind_of_eq (run_synthesizeWith_of_ok hsynthesized before),
    run_synthesizeWith_of_ok hsynthesized]

theorem ends_of_unlisted {f : Fault} (hobtains : r.Obtains before.files c)
    (hlisted : r.endpoints c = .error f) :
    r.Ends before ((r.perform Machine.host).run before).1
      ((r.perform Machine.host).run before).2 := by
  rw [run_perform_of_unlisted hstart hlisted]
  refine ends_of_unreached ?_ (.aborted (.listing hobtains hlisted))
  intro c' endpoints t h
  obtain rfl := hobtains.unique h.obtained
  have hok := h.listed
  rw [hlisted] at hok
  cases hok

theorem ends_of_refused {e : SynthesisError} (hobtains : r.Obtains before.files c)
    (hlisted : r.endpoints c = .ok endpoints) (hrefused : synthesize c endpoints = .error e) :
    r.Ends before ((r.perform Machine.host).run before).1
      ((r.perform Machine.host).run before).2 := by
  have hnone : ∀ c endpoints t, ¬ r.Reaches before.files c endpoints t := by
    intro c' endpoints' t h
    obtain rfl := hobtains.unique h.obtained
    obtain rfl := Except.ok.inj (hlisted.symm.trans h.listed)
    have hok := h.synthesized
    rw [hrefused] at hok
    cases hok
  obtain ⟨o, hunreached, hrun⟩ := perform_of_refused hstart hobtains hlisted hrefused
  rw [hrun]
  exact ends_of_unreached hnone hunreached

/-- A topology is delivered on the files that its emissions left. -/
theorem ends_of_reached {t : Topology} (hreaches : r.Reaches before.files c endpoints t) :
    r.Ends before ((r.perform Machine.host).run before).1
      ((r.perform Machine.host).run before).2 := by
  rw [run_perform_of_ok hstart hreaches.listed hreaches.synthesized]
  obtain ⟨hrecords, husage, hdelivers⟩ := r.deliver_delivers t
    (synthesizeOn c endpoints before).1.records (synthesizeOn c endpoints before).2
  refine {
    unreached := fun hnone => absurd hreaches (hnone c endpoints t)
    reached := ?_
    accepted := husage }
  intro c' endpoints' t' h
  obtain ⟨rfl, rfl, rfl⟩ := hreaches.unique h
  exact ⟨hrecords, hdelivers⟩

end obtained

theorem perform_ends (r : Request) (before : Machine) :
    r.Ends before ((r.perform Machine.host).run before).1
      ((r.perform Machine.host).run before).2 := by
  have h := r.starts before
  generalize hstart : (r.configuration Machine.host).run before = start at h
  cases h with
  | @ended o hnone hunreached =>
    have hrun : (r.perform Machine.host).run before = (o, before) := by
      unfold perform
      rw [run_bind_of_eq hstart]
      rfl
    rw [hrun]
    exact ends_of_unreached (fun c _ _ h => hnone c h.obtained) hunreached
  | @obtained c hobtains =>
    cases hlisted : r.endpoints c with
    | error f => exact ends_of_unlisted hstart hobtains hlisted
    | ok endpoints =>
      cases hsynthesized : synthesize c endpoints with
      | error e => exact ends_of_refused hstart hobtains hlisted hsynthesized
      | ok t => exact ends_of_reached hstart ⟨hobtains, hlisted, hsynthesized⟩

end Request

/-! ## Main statement -/

/-- **Runs** of accepted words: without a topology nothing is printed or written, and with one
    the files asked for decide on success. -/
theorem run_ends {words : List String} {r : Request} (h : Request.ofWords words = .request r)
    (before : Machine) :
    r.Ends before ((run Machine.host words).run before).1
      ((run Machine.host words).run before).2 := by
  unfold run
  rw [h]
  exact r.perform_ends before

/-- A request without any parameter. -/
def Request.plain : Request where
  config := none
  caches := none
  dirs := none
  dmas := 0
  routerRankEscape := false
  output := none
  dot := none
  tikz := none
  render := false
  powerModel := none
  shape := none

/-- A request for a small mesh, to be drawn and written. -/
def Request.drawn : Request :=
  { Request.plain with output := some "net", tikz := some "spot", shape := some (.mesh 4 2) }

/-- A machine with one file. -/
def holding (name text : String) : Machine :=
  ⟨⟨[([name], .file text.toUTF8)], []⟩, .missing, ""⟩

/-- A file stands where the drawing is to go. This is on record, and nowhere else: the run
    succeeds, and the document can be read. -/
theorem run_ends_obstructed :
    ∃ t o after, synthesize (Request.drawn.adjust {}) (Endpoint.population 4 4 0) = .ok t ∧
      (run Machine.host ["--tikz", "spot", "-o", "net", "mesh", "-c", "4", "-r", "2"]).run
        (holding "spot" "") = (o, after) ∧
      (∃ record ∈ o.records, record.level = .error) ∧
      o.exit = 0 ∧ o.stdout = "" ∧ o.stderr = "" ∧
      after.files.readFile "net" = .ok t.document.toUTF8 := by
  have hwords : Request.ofWords ["--tikz", "spot", "-o", "net", "mesh", "-c", "4", "-r", "2"] =
      .request .drawn := by
    decide +kernel
  obtain ⟨t, h⟩ : ∃ t, synthesize (Request.drawn.adjust {}) (Endpoint.population 4 4 0) = .ok t :=
    exists_synthesize (g := ⟨2, 2⟩) rfl (by decide) (by decide) rfl
  have hends := run_ends hwords (holding "spot" "")
  rcases hrun : (run Machine.host ["--tikz", "spot", "-o", "net", "mesh", "-c", "4", "-r", "2"]).run
    (holding "spot" "") with ⟨o, after⟩
  rw [hrun] at hends
  obtain ⟨hrecords, hdelivers⟩ :=
    hends.reached _ (Endpoint.population 4 4 0) t ⟨.shape rfl rfl, rfl, h⟩
  rw [synthesizeOn, run_synthesizeWith_of_ok h] at hrecords hdelivers
  have hwritten : Writes t.document (some "net") (holding "spot" "").files
      ((holding "spot" "").files.put ["net"] (.file t.document.toUTF8)) := .written rfl
  have hexit := hdelivers.exit_eq_zero_iff.mpr ⟨_, _, hwritten, .unasked _⟩
  have hquiet : o.stderr = "" := by
    rcases hdelivers.reported with ⟨-, hstderr⟩ | ⟨path, e, -, hfailed⟩
    · exact hstderr
    · rw [hfailed] at hexit
      cases hexit
  refine ⟨t, o, after, h, rfl, ?_, hexit, hdelivers.stdout_eq_empty nofun, hquiet,
    hdelivers.output_holds "net" ["net"] _ rfl rfl hwritten nofun⟩
  rw [hrecords]
  exact ⟨_, List.mem_append_left _ (List.mem_append_right _ (List.mem_singleton_self _)), rfl⟩

/-- A request that is made by a configuration file alone. -/
def Request.filed (path : String) : Request :=
  { Request.plain with config := some path }

/-- A choice that is left empty in a configuration file makes no configuration, and cuts the
    run short. -/
theorem run_emptyChoice :
    Request.ofWords ["--config", "c.yaml"] = .request (.filed "c.yaml") ∧
      (∀ c, ¬ (Request.filed "c.yaml").Obtains
        (holding "c.yaml" "topology: {}\n").files c) ∧
      ((run Machine.host ["--config", "c.yaml"]).run
        (holding "c.yaml" "topology: {}\n")).1.exit = 101 := by
  refine ⟨by decide +kernel, ?_, by decide +kernel⟩
  have hnone : (match (holding "c.yaml" "topology: {}\n").files.readFile "c.yaml" with
      | .ok contents => (Configuration.ofContents "c.yaml" contents).toOption.isSome
      | .error _ => false) = false := by
    decide +kernel
  intro c hobtains
  obtain ⟨contents, base, hread, hbase⟩ := hobtains.exists_contents rfl
  rw [hread] at hnone
  dsimp only at hnone
  rw [hbase] at hnone
  cases hnone

end Interconnect.Command
