/-!
# Log lines

What an operation reports on its way, in order. A line has a level and a text.
-/

namespace ArmSession.Log

inductive Level
  | error
  | warn
  | info
  | debug
  | trace
deriving DecidableEq

def Level.text : Level → String
  | .error => "ERROR"
  | .warn => "WARN"
  | .info => "INFO"
  | .debug => "DEBUG"
  | .trace => "TRACE"

structure Line where
  level : Level
  message : String
deriving DecidableEq

def Line.text (line : Line) : String := line.level.text ++ " " ++ line.message

/-- Where lines are shown: the first listener that is installed stays. -/
structure Listener where
  name : String
deriving DecidableEq

def install (wanted : Listener) : Option Listener → Option Listener
  | some present => some present
  | none => some wanted

end ArmSession.Log
