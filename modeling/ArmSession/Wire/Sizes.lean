/-!
# Numbers that the protocol fixes

Versions are compared for equality only. Every message is a header and a payload whose size
depends on the kind of message alone.
-/

namespace ArmSession

def protocolVersion : UInt16 := 2

def defaultServicePort : UInt16 := 1337

abbrev jointCount : Nat := 7

/-- A pose is a homogeneous 4 × 4 matrix, column by column. -/
abbrev poseSize : Nat := 16

/-- A twist or wrench has three linear and three angular parts. -/
abbrev twistSize : Nat := 6

namespace Wire

/-- The motion part of a command has room for the largest kind of motion. -/
abbrev motionSlots : Nat := poseSize

def headerSize : Nat := 4

def requestSize : Nat := 4

def responseSize : Nat := 4

def stateSize : Nat :=
  8 + 8 + 3 * (8 * jointCount) + 8 * poseSize + 8 * twistSize + 1 + 1

def commandSize : Nat := 8 + 1 + 1 + 8 * motionSlots + 8 * jointCount

end Wire

end ArmSession
