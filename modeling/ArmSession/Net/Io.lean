import ArmSession.Link

/-!
# Input and output of the host

A host answers a call with what was asked for or with an error, and a reader may have to wait.
Time is counted in whole microseconds. What a socket will meet is laid out in advance: a list
of arrivals for its reads and a list of outcomes for its writes.
-/

namespace ArmSession.Net

inductive IoErrorKind
  /-- The call was cut short by a signal and did nothing. -/
  | interrupted
  | wouldBlock
  | timedOut
  | unexpectedEof
  | brokenPipe
  | connectionReset
  | connectionAborted
  | other
deriving DecidableEq

structure IoError where
  kind : IoErrorKind
  text : String
deriving DecidableEq

namespace IoError

def blocked : IoError := ⟨.wouldBlock, "Resource temporarily unavailable (os error 11)"⟩

def nothingTaken : IoError := ⟨.other, "failed to write whole buffer"⟩

def unreachable : IoError := ⟨.other, "Network is unreachable (os error 101)"⟩

def addressInUse : IoError := ⟨.other, "Address already in use (os error 98)"⟩

def noTimeToConnect : IoError := ⟨.other, "cannot set a 0 duration timeout"⟩

def onStream (e : IoError) : LinkError :=
  match e.kind with
  | .brokenPipe | .connectionReset | .connectionAborted => .closed
  | _ => .io e.text

def onRead (timeout : Duration) (e : IoError) : LinkError :=
  match e.kind with
  | .wouldBlock | .timedOut => .timeout timeout
  | .unexpectedEof => .closed
  | _ => e.onStream

end IoError

/-- Something that a reader gets after waiting for so many microseconds. -/
structure Arrival (α : Type) where
  wait : Nat
  event : α
deriving DecidableEq

/-- The longest that one read may take, in microseconds. A socket counts whole microseconds
and cannot be told to wait for none. -/
def patience (timeout : Duration) : Nat := max 1 (timeout.nanos / 1000)

end ArmSession.Net
