/-! # Command lines

    How the words of a command line are read: parameters by a long or a short
    name, with or without a value, and a subcommand that takes the words after
    it. A word behind a parameter that needs a value is its value, unless it
    begins with a dash.
-/

namespace Interconnect.Command

/-- A parameter of a command. -/
structure Parameter where
  long : String
  short : Option Char := none
  takesValue : Bool := true
  default : Option String := none
  about : String := ""
  deriving DecidableEq, Repr, Inhabited

/-- The parameters that every command has. -/
def commonParameters : List Parameter :=
  [{ long := "help", short := some 'h', takesValue := false,
     about := "Prints help information" },
   { long := "version", short := some 'V', takesValue := false,
     about := "Prints version information" }]

/-- A parameter that was used, by its long name, and the value it was given. -/
structure Use where
  long : String
  value : Option String := none
  deriving DecidableEq, Repr, Inhabited

/-- Why the words are read no further. -/
inductive Stop where
  | refused
  | help
  | version
  deriving DecidableEq, Repr, Inhabited

/-- The words read so far: the uses, the last one first, and whether it waits
    for its value. -/
structure Reading where
  uses : List Use := []
  waiting : Bool := false
  deriving DecidableEq, Repr, Inhabited

namespace Reading

/-- Use a parameter, with a value if one was given along. -/
def use (r : Reading) (p : Parameter) (value : Option (List Char)) : Except Stop Reading :=
  if p.takesValue then
    .ok ⟨⟨p.long, value.map fun v => String.ofList (v.dropWhile (· = '='))⟩ :: r.uses,
      value.isNone⟩
  else match p.long with
    | "help" => .error .help
    | "version" => .error .version
    | _ => .ok ⟨⟨p.long, none⟩ :: r.uses, false⟩

/-- Give the last use its value. -/
def supply (r : Reading) (value : String) : Reading :=
  match r.uses with
  | last :: before => ⟨{ last with value := some value } :: before, false⟩
  | [] => r

/-- Read a long name, and a value behind an equals sign. -/
def readLong (ps : List Parameter) (r : Reading) (word : List Char) : Except Stop Reading :=
  let body := word.dropWhile (· = '-')
  let name := String.ofList (body.takeWhile (· ≠ '='))
  let value := if body.contains '=' then some ((body.dropWhile (· ≠ '=')).drop 1) else none
  match ps.find? fun p => p.long = name with
  | some p => r.use p value
  | none => .error .refused

/-- Read short names that are written together; the first one that takes a
    value takes what follows it. -/
def readShort (ps : List Parameter) (r : Reading) : List Char → Except Stop Reading
  | [] => .ok r
  | c :: rest =>
    match ps.find? fun p => p.short = some c with
    | none => .error .refused
    | some p =>
      if p.takesValue then r.use p (if rest.isEmpty then none else some rest)
      else do readShort ps (← r.use p none) rest

/-- Read words up to a subcommand: the uses in order, and the subcommand with
    the words after it. Behind `--` no word is expected. -/
def readWords (ps : List Parameter) (subcommands : List String) (r : Reading) :
    List String → Except Stop (List Use × Option (String × List String))
  | [] => .ok (r.uses.reverse, none)
  | word :: rest =>
    match word.toList with
    | ['-', '-'] => if rest.isEmpty then .ok (r.uses.reverse, none) else .error .refused
    | '-' :: '-' :: _ => do readWords ps subcommands (← readLong ps r word.toList) rest
    | '-' :: c :: more => do readWords ps subcommands (← readShort ps r (c :: more)) rest
    | _ =>
      if r.waiting then readWords ps subcommands (r.supply word) rest
      else if subcommands.contains word then .ok (r.uses.reverse, some (word, rest))
      else .error .refused

end Reading

/-- The uses of parameters, when each is used at most once and has a value if
    it needs one. -/
structure Uses where
  parameters : List Parameter
  uses : List Use
  deriving Repr, Inhabited

namespace Uses

/-- The uses of a parameter. -/
def ofParameter (uses : List Use) (p : Parameter) : List Use :=
  uses.filter fun u => u.long = p.long

/-- Whether a parameter is used as it can be. -/
def fits (uses : List Use) (p : Parameter) : Bool :=
  match ofParameter uses p with
  | [] => true
  | [u] => !p.takesValue || u.value.isSome || p.default.isSome
  | _ => false

/-- Take uses, unless a parameter is not used as it can be. -/
def check (ps : List Parameter) (uses : List Use) : Except Stop Uses :=
  if ps.all (fits uses) then .ok ⟨ps, uses⟩ else .error .refused

/-- Whether a parameter is used. -/
def has (us : Uses) (long : String) : Bool :=
  us.uses.any fun u => u.long = long

/-- The value of a parameter, or its default. -/
def value? (us : Uses) (long : String) : Option String :=
  let used := (us.uses.find? fun u => u.long = long).bind (·.value)
  let default := (us.parameters.find? fun p => p.long = long).bind (·.default)
  used <|> default

/-- A number that fits 64 bits, with an optional plus sign. -/
def number? (text : String) : Option UInt64 :=
  let digits := match text.toList with
    | '+' :: rest => rest
    | chars => chars
  let n := digits.foldl (fun n c => n * 10 + (c.toNat - '0'.toNat)) 0
  if digits.isEmpty || !digits.all Char.isDigit || Nat.pow 2 64 ≤ n then none else some n.toUInt64

/-- The number that a parameter is given, if it is given any. -/
def number (us : Uses) (long : String) : Except Stop (Option UInt64) :=
  match us.value? long with
  | none => .ok none
  | some text =>
    match number? text with
    | some n => .ok (some n)
    | none => .error .refused

/-- The number of a parameter that has a default. -/
def someNumber (us : Uses) (long : String) : Except Stop UInt64 := do
  match ← us.number long with
  | some n => return n
  | none => throw .refused

end Uses

end Interconnect.Command
