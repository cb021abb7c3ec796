/-!
# Log entries

What happened on the way to a result is returned beside the result, as entries in the order in
which they arose.
-/

namespace PortablePdb

inductive LogLevel where
  | warn
  | debug
  deriving DecidableEq, Repr

def LogLevel.name : LogLevel → String
  | .warn => "WARN"
  | .debug => "DEBUG"

inductive LogValue where
  | number (value : Nat)
  | text (value : String)
  deriving DecidableEq, Repr

structure LogEntry where
  level : LogLevel
  message : String
  fields : List (String × LogValue)
  deriving DecidableEq, Repr

end PortablePdb
