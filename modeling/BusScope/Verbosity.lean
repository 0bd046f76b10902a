/-!
How much is logged. A level is named in any case of its ASCII letters, and the level of warnings
also by a short name.
-/

namespace BusScope

inductive Verbosity where
  | error
  | warning
  | info
  | debug
deriving DecidableEq, Repr

namespace Verbosity

def text : Verbosity → String
  | .error => "error"
  | .warning => "warning"
  | .info => "info"
  | .debug => "debug"

/-- The level of a log record that is just severe enough to be kept. -/
def threshold : Verbosity → String
  | .error => "ERROR"
  | .warning => "WARN"
  | .info => "INFO"
  | .debug => "DEBUG"

def ofText? (s : String) : Option Verbosity :=
  [.error, .warning, .info, .debug].find? fun v => v.text == s

def normalized (s : String) : String := String.ofList (s.toList.map Char.toLower)

def parse? (s : String) : Option Verbosity :=
  let name := normalized s
  if name == "warn" then some .warning else ofText? name

end Verbosity

end BusScope
