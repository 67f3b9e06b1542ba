import Interconnect.Files

/-! # Hosts

    What a run needs from the machine it runs on: files, a program that
    typesets documents, and the time. A host gives these as operations of some
    monad; the one given here keeps everything in memory.
-/

namespace Interconnect

/-- How an attempt to typeset ended. -/
inductive Typesetting where
  | missing
  | unstarted (program : String) (error : OsError)
  | finished (status : Nat)
  deriving DecidableEq, Repr, Inhabited

/-- The operations of a machine. -/
structure Host (m : Type → Type) where
  readFile : String → m (Except FileSystem.ReadFailure ByteArray)
  createDirectories : String → m (Except OsError Unit)
  writeFile : String → String → m (Except OsError Unit)
  /-- Run the typesetter in a directory, with arguments. -/
  typeset : String → List String → m Typesetting
  /-- The time, as it is written into documents. -/
  now : m String

/-- A typesetter. One that is installed ends with a status, and leaves files in
    the directory that it runs in, both by its arguments. -/
inductive Typesetter where
  | missing
  | broken (program : String)
  | installed (program : String) (run : List String → Nat × List (String × String))

/-- A machine in memory. -/
structure Machine where
  files : FileSystem
  typesetter : Typesetter
  time : String

namespace Machine

/-- Apply an operation to the files of a machine. -/
def onFiles {α : Type} (act : FileAction α) : StateM Machine (Except OsError α) :=
  fun s =>
    let (result, files) := act.run s.files
    (result, { s with files })

/-- Whether a program can be started in a directory. -/
def canEnter (fs : FileSystem) (directory : String) : Except OsError Unit := do
  let _ ← fs.enter (← FilePath.ofText directory)

/-- Write the files that a program leaves in a directory, as far as it can. -/
def leave (directory : String) : List (String × String) → StateM Machine Unit
  | [] => return ()
  | (name, contents) :: rest => do
    let _ ← onFiles (FileSystem.writeFile (FilePath.join directory name) contents.toUTF8)
    leave directory rest

/-- Run the typesetter of a machine. -/
def typeset (directory : String) (arguments : List String) : StateM Machine Typesetting := do
  let s ← get
  match s.typesetter with
  | .missing => return .missing
  | .broken program => return .unstarted program .notFound
  | .installed program run =>
    match canEnter s.files directory with
    | .error e => return .unstarted program e
    | .ok () =>
      let (status, files) := run arguments
      leave directory files
      return .finished status

/-- The operations of a machine in memory. -/
def host : Host (StateM Machine) where
  readFile path := return (← get).files.readFile path
  createDirectories path := onFiles (FileSystem.createDirectories path)
  writeFile path text := onFiles (FileSystem.writeFile path text.toUTF8)
  typeset := typeset
  now := return (← get).time

end Machine

end Interconnect
