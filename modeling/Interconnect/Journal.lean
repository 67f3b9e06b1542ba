/-! # Journals

    What a run reports on the side: records of five levels of severity, in
    order. A reader chooses the least severe level to see.
-/

namespace Interconnect.Journal

/-- The severity of a record, the most severe first. -/
inductive Level where
  | error
  | warn
  | info
  | debug
  | trace
  deriving DecidableEq, Repr, Inhabited

namespace Level

def name : Level → String
  | error => "ERROR"
  | warn => "WARN"
  | info => "INFO"
  | debug => "DEBUG"
  | trace => "TRACE"

/-- Greater numbers are less severe. -/
def verbosity : Level → Nat
  | error => 1
  | warn => 2
  | info => 3
  | debug => 4
  | trace => 5

end Level

/-- One report. -/
structure Record where
  level : Level
  text : String
  deriving DecidableEq, Repr, Inhabited

/-- The records that are no less severe than a level. -/
def atMost (level : Level) (records : List Record) : List Record :=
  records.filter fun r => r.level.verbosity ≤ level.verbosity

end Interconnect.Journal
