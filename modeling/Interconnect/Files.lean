/-! # File systems

    Directories and files in memory, with the operations that a program uses
    to read and write them and the errors that an operating system gives.

    * A path is read relative to the working directory unless it begins with
      a slash; every name in it but the last must be that of a directory.
    * Creating a directory with all those above it stops at the first error,
      and what was created until then stays.
-/

namespace Interconnect

/-- Why an operation on files fails. -/
inductive OsError where
  | notFound
  | alreadyExists
  | notDirectory
  | isDirectory
  | nameTooLong
  | nulInName
  | other (text : String)
  deriving DecidableEq, Repr, Inhabited

/-- The text of the error, with its number. -/
def OsError.message : OsError → String
  | notFound => "No such file or directory (os error 2)"
  | alreadyExists => "File exists (os error 17)"
  | notDirectory => "Not a directory (os error 20)"
  | isDirectory => "Is a directory (os error 21)"
  | nameTooLong => "File name too long (os error 36)"
  | nulInName => "file name contained an unexpected NUL byte"
  | other text => text

/-! ## Paths -/

namespace FilePath

/-- How a path ends: with its last name, with a slash after that name, or with
    a `.`, also when slashes follow it.  A slash and a `.` both ask for a
    directory; a `.` is looked for in the last name, which has to be there. -/
inductive Ending where
  | plain
  | slash
  | dot
  deriving DecidableEq, Repr, Inhabited

end FilePath

/-- A path as its names. -/
structure FilePath where
  absolute : Bool
  names : List String
  ending : FilePath.Ending
  deriving DecidableEq, Repr, Inhabited

namespace FilePath

/-- A name of more bytes is refused. -/
def longestName : Nat := 255

/-- A path of as many bytes is refused. -/
def pathLimit : Nat := 4096

/-- The parts between slashes. -/
def parts : List Char → List (List Char)
  | [] => [[]]
  | c :: rest =>
    if c = '/' then [] :: parts rest
    else match parts rest with
      | [] => [[c]]
      | first :: more => (c :: first) :: more

/-- The ending of a path with these parts. -/
def Ending.ofParts (ps : List String) : Ending :=
  if (ps.filter (· ≠ "")).getLast? = some "." then .dot
  else if ps.getLast? = some "" then .slash
  else .plain

/-- The path that a text denotes. -/
def ofText (text : String) : Except OsError FilePath :=
  let chars := text.toList
  let ps := (parts chars).map String.ofList
  if chars.contains '\x00' then .error .nulInName
  else if text.isEmpty then .error .notFound
  else if pathLimit ≤ text.utf8ByteSize then .error .nameTooLong
  else .ok {
    absolute := chars.head? = some '/'
    names := ps.filter fun p => p ≠ "" ∧ p ≠ "."
    ending := .ofParts ps }

/-- The path of the directory that holds the last name. -/
def parent (p : FilePath) : FilePath :=
  { p with names := p.names.dropLast, ending := .plain }

/-- The path of a name in a directory, as a text. -/
def join (directory name : String) : String :=
  if directory.isEmpty then name
  else if directory.toList.getLast? = some '/' then directory ++ name
  else directory ++ "/" ++ name

end FilePath

/-! ## File systems -/

/-- What a path leads to. -/
inductive Entry where
  | directory
  | file (contents : ByteArray)
  deriving Inhabited

/-- A tree of directories and files, each under the names that lead to it from
    the root, which is always a directory. -/
structure FileSystem where
  entries : List (List String × Entry)
  workingDirectory : List String
  deriving Inhabited

/-- An operation that changes a file system, also when it fails. -/
abbrev FileAction := ExceptT OsError (StateM FileSystem)

namespace FileSystem

/-- What is found under names from the root. -/
def entry? (fs : FileSystem) (path : List String) : Option Entry :=
  if path.isEmpty then some .directory else fs.entries.lookup path

/-- Put an entry in place of what was there. -/
def put (fs : FileSystem) (path : List String) (e : Entry) : FileSystem :=
  { fs with entries := (path, e) :: fs.entries.filter fun (p, _) => p ≠ path }

/-- Follow one name in a directory. -/
def follow (fs : FileSystem) (place : List String) (name : String) :
    Except OsError (List String × Option Entry) :=
  match fs.entry? place with
  | none => .error .notFound
  | some (.file _) => .error .notDirectory
  | some .directory =>
    if name = ".." then .ok (place.dropLast, some .directory)
    else if FilePath.longestName < name.utf8ByteSize then .error .nameTooLong
    else .ok (place ++ [name], fs.entry? (place ++ [name]))

/-- Follow names one after the other; only the last may lead nowhere. -/
def locateFrom (fs : FileSystem) (place : List String) :
    List String → Except OsError (List String × Option Entry)
  | [] => .ok (place, fs.entry? place)
  | [name] => fs.follow place name
  | name :: rest => do
    match ← fs.follow place name with
    | (_, none) => throw .notFound
    | (place, some _) => fs.locateFrom place rest

/-- Where a path leads, and what is there. -/
def locate (fs : FileSystem) (p : FilePath) : Except OsError (List String × Option Entry) :=
  fs.locateFrom (if p.absolute then [] else fs.workingDirectory) p.names

/-- The place of the directory that a path leads to. -/
def enter (fs : FileSystem) (p : FilePath) : Except OsError (List String) := do
  match ← fs.locate p with
  | (place, some .directory) => return place
  | (_, some (.file _)) => throw .notDirectory
  | (_, none) => throw .notFound

/-- Whether a path leads to a directory. -/
def isDirectory (fs : FileSystem) (p : FilePath) : Bool :=
  match fs.enter p with
  | .ok _ => true
  | .error _ => false

/-- Make one directory.  A `.` at the end names a directory that is there. -/
def makeDirectory (fs : FileSystem) (p : FilePath) : Except OsError FileSystem := do
  if p.ending = .dot then
    let _ ← fs.enter p
    throw .alreadyExists
  match ← fs.locate p with
  | (place, none) => return fs.put place .directory
  | (_, some _) => throw .alreadyExists

/-- Make one directory, unless it is there already. -/
def ensureDirectory (p : FilePath) : FileAction Unit := do
  let fs ← get
  match fs.makeDirectory p with
  | .ok fs => set fs
  | .error e => unless fs.isDirectory p do throw e

/-- Make a directory and those above it, at most as many as given. -/
def ensureDirectories (p : FilePath) : Nat → FileAction Unit
  | 0 => ensureDirectory p
  | depth + 1 => do
    let fs ← get
    match fs.makeDirectory p with
    | .error .notFound =>
      ensureDirectories p.parent depth
      ensureDirectory p
    | _ => ensureDirectory p

/-- Make the directory of a path and those above it. -/
def createDirectories (text : String) : FileAction Unit := do
  unless text.isEmpty do
    let p ← liftExcept (FilePath.ofText text)
    ensureDirectories p (p.names.length - 1)
where
  liftExcept {α : Type} : Except OsError α → FileAction α
    | .ok a => pure a
    | .error e => throw e

/-- Open a file for writing: a new one, or an old one without its contents.
    A slash at the end is refused before the last name is looked for, so that
    only the names above it have to be directories. -/
def openForWriting (fs : FileSystem) (text : String) : Except OsError (List String) := do
  let p ← FilePath.ofText text
  match p.ending with
  | .slash =>
    let _ ← fs.enter p.parent
    throw .isDirectory
  | .dot =>
    let _ ← fs.enter p
    throw .isDirectory
  | .plain =>
    match ← fs.locate p with
    | (place, none) | (place, some (.file _)) => return place
    | (_, some .directory) => throw .isDirectory

/-- Write a file, over what it held. -/
def writeFile (text : String) (contents : ByteArray) : FileAction Unit := do
  let fs ← get
  match fs.openForWriting text with
  | .ok place => set (fs.put place (.file contents))
  | .error e => throw e

/-- Why a file could not be read: it could not be opened, or it was and holds
    nothing that can be read. -/
inductive ReadFailure where
  | opening (error : OsError)
  | reading (error : OsError)
  deriving DecidableEq, Repr, Inhabited

/-- Read a file. -/
def readFile (fs : FileSystem) (text : String) : Except ReadFailure ByteArray :=
  match FilePath.ofText text with
  | .error e => .error (.opening e)
  | .ok p =>
    match fs.locate p with
    | .error e => .error (.opening e)
    | .ok (_, none) => .error (.opening .notFound)
    | .ok (_, some .directory) => .error (.reading .isDirectory)
    | .ok (_, some (.file contents)) =>
      if p.ending = .plain then .ok contents else .error (.opening .notDirectory)

end FileSystem

end Interconnect
