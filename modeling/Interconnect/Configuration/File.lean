import Interconnect.Configuration.Document
import Interconnect.Host
import Interconnect.Text.Utf8

/-! # Configuration files

    A configuration is read from a file that holds a document. Errors in the
    file are shown with its path.
-/

namespace Interconnect.Configuration

variable {m : Type → Type} [Monad m]

/-- A configuration from the contents of a file. -/
def ofContents (path : String) (contents : ByteArray) :
    Except ConfigurationError Configuration :=
  match Text.Utf8.decode contents with
  | .error e => .error (.file s!"{path}: {e.message}")
  | .ok text =>
    match Configuration.ofDocument text with
    | .ok c => .ok c
    | .error e =>
      .error (if e.isFatal then .invalid e else .file s!"{path}: {e.message}")

/-- Read a configuration from a file. -/
def ofFile (host : Host m) (path : String) : m (Except ConfigurationError Configuration) := do
  match ← host.readFile path with
  | .error (.opening e) => return .error (.file s!"cannot open {path}: {e.message}")
  | .error (.reading e) => return .error (.file s!"{path}: {e.message}")
  | .ok contents => return ofContents path contents

end Interconnect.Configuration
