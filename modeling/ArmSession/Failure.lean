import ArmSession.Config
import ArmSession.Fault
import ArmSession.Library
import ArmSession.Link
import ArmSession.Mode
import ArmSession.Phase
import ArmSession.Wire.Error

/-!
# Why a session operation fails

Every failure has a cause. Its kind tells the caller what can still be done: after a network
failure the session may be reconnected, after a protocol failure or a wrong version it is of
no more use, and after any other it can be used as before.
-/

namespace ArmSession

inductive FailureKind
  | network
  | protocol
  | incompatibleVersion
  | control
  | realtime
  | modelLibrary
  | invalidArgument
deriving DecidableEq

namespace FailureKind

def name : FailureKind → String
  | network => "Network"
  | protocol => "Protocol"
  | incompatibleVersion => "IncompatibleVersion"
  | control => "Control"
  | realtime => "Realtime"
  | modelLibrary => "ModelLibrary"
  | invalidArgument => "InvalidArgument"

def text : FailureKind → String
  | network => "network failure"
  | protocol => "protocol failure"
  | incompatibleVersion => "incompatible version"
  | control => "control failure"
  | realtime => "realtime failure"
  | modelLibrary => "model library failure"
  | invalidArgument => "invalid argument"

def isRecoverable (k : FailureKind) : Bool := k = network

def isFatalForSession (k : FailureKind) : Bool := k = protocol || k = incompatibleVersion

end FailureKind

inductive Failure
  | link (cause : LinkError)
  | message (cause : MessageError)
  /-- A state did not come after the one before it. -/
  | outOfOrder (messageId previous : UInt64)
  /-- A read ended although no state was taken. -/
  | noState
  | incompatibleVersion (client server : UInt16)
  | controllerFault (fault : ControllerFault)
  | wrongCommand (actual expected : CommandKind) (mode : Mode)
  | nonFinite (kind : CommandKind)
  | realtimeRefused (reason : String)
  | library (cause : LibraryError)
  | config (cause : ConfigError)
  /-- A control call was made without any callback. -/
  | nothingToControl
  | motionMismatch (mode : Mode)
  | torqueMismatch (mode : Mode)
  | alreadyEnded (phase : Phase)
  /-- A failure that the caller words. -/
  | reported (kind : FailureKind) (text : String)
deriving DecidableEq

namespace Failure

def kind : Failure → FailureKind
  | link _ => .network
  | message _ => .protocol
  | outOfOrder _ _ => .protocol
  | noState => .protocol
  | incompatibleVersion _ _ => .incompatibleVersion
  | controllerFault _ => .control
  | wrongCommand _ _ _ => .control
  | nonFinite _ => .control
  | realtimeRefused _ => .realtime
  | library _ => .modelLibrary
  | config _ => .invalidArgument
  | nothingToControl => .invalidArgument
  | motionMismatch _ => .invalidArgument
  | torqueMismatch _ => .invalidArgument
  | alreadyEnded _ => .invalidArgument
  | reported kind _ => kind

def describe : Failure → String
  | link cause => cause.message
  | message cause => cause.message
  | outOfOrder messageId previous =>
    s!"out-of-order or duplicate state: message id {messageId} after {previous}"
  | noState => "read loop ended without a state"
  | incompatibleVersion client server =>
    s!"incompatible library version (client: {client}, server: {server})"
  | controllerFault fault => "controller rejected motion: " ++ fault.text
  | wrongCommand actual expected mode =>
    s!"callback returned {actual.name} command, expected {expected.name} in mode {mode.text}"
  | nonFinite kind => s!"callback returned non-finite value in {kind.name} command"
  | realtimeRefused reason => "unable to set realtime scheduling: " ++ reason
  | library cause => cause.message
  | config cause => cause.message
  | nothingToControl =>
    "control loop requires at least one callback; use read() for read-only access"
  | motionMismatch mode => "motion generator callback does not match mode " ++ mode.text
  | torqueMismatch mode => "torque callback does not match mode " ++ mode.text
  | alreadyEnded phase => s!"control loop already ended ({phase.name})"
  | reported _ text => text

def text (f : Failure) : String := f.kind.text ++ ": " ++ f.describe

end Failure

end ArmSession
