/-!
This module contains how much a program tells about what it does.
-/

namespace PadRelay

/--
The levels of detail, where each one includes those before it.
-/
inductive LogLevel where
  | warn
  | info
  | debug
  | trace
deriving DecidableEq, Repr, Inhabited

namespace LogLevel

def name : LogLevel → String
  | warn => "warn"
  | info => "info"
  | debug => "debug"
  | trace => "trace"

def ofVerbosity : Nat → LogLevel
  | 0 => warn
  | 1 => info
  | 2 => debug
  | _ => trace

end LogLevel
end PadRelay
