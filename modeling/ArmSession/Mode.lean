import ArmSession.Motion

/-!
# Which callbacks a control call uses

A call may use a motion callback of one kind, a torque callback, or both. With neither there
is nothing to send.
-/

namespace ArmSession

structure Mode where
  motion : Option MotionKind
  torque : Bool
deriving DecidableEq

namespace Mode

def readOnly : Mode := ⟨none, false⟩

def torqueOnly : Mode := ⟨none, true⟩

def motionOnly (kind : MotionKind) : Mode := ⟨some kind, false⟩

def motionWithTorque (kind : MotionKind) : Mode := ⟨some kind, true⟩

def isReadOnly (m : Mode) : Bool := m.motion.isNone && !m.torque

def expectedMotion (m : Mode) : Option CommandKind := m.motion.map .motion

def text : Mode → String
  | ⟨none, false⟩ => "read-only"
  | ⟨none, true⟩ => "torque"
  | ⟨some kind, false⟩ => kind.name
  | ⟨some kind, true⟩ => kind.name ++ " + torque"

end Mode

end ArmSession
