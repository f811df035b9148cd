/-!
# Flag bytes

A flag is one bit of a byte. Setting one flag leaves every other bit as it is, the reserved
ones included.
-/

namespace ArmSession.Wire

def flag (mask byte : UInt8) : Bool := byte &&& mask != 0

def withFlag (mask : UInt8) (on : Bool) (byte : UInt8) : UInt8 :=
  if on then byte ||| mask else byte &&& ~~~mask

/-- The flags of a state: bits 0 and 1, the others reserved. -/
structure StateFlags where
  byte : UInt8
deriving DecidableEq

namespace StateFlags

def motionFinished (f : StateFlags) : Bool := flag 1 f.byte

def fault (f : StateFlags) : Bool := flag 2 f.byte

def withMotionFinished (on : Bool) (f : StateFlags) : StateFlags := ⟨withFlag 1 on f.byte⟩

def withFault (on : Bool) (f : StateFlags) : StateFlags := ⟨withFlag 2 on f.byte⟩

def of (motionFinished fault : Bool) : StateFlags :=
  ((⟨0⟩ : StateFlags).withMotionFinished motionFinished).withFault fault

@[simp] theorem motionFinished_of (m f : Bool) : (of m f).motionFinished = m := by
  cases m <;> cases f <;> rfl

@[simp] theorem fault_of (m f : Bool) : (of m f).fault = f := by
  cases m <;> cases f <;> rfl

end StateFlags

/-- The flags of a command: bits 0 to 3, the others reserved. -/
structure CommandFlags where
  byte : UInt8
deriving DecidableEq

namespace CommandFlags

def hasMotion (f : CommandFlags) : Bool := flag 1 f.byte

def hasTorques (f : CommandFlags) : Bool := flag 2 f.byte

def motionGeneratorFinished (f : CommandFlags) : Bool := flag 4 f.byte

def controllerFinished (f : CommandFlags) : Bool := flag 8 f.byte

def withHasMotion (on : Bool) (f : CommandFlags) : CommandFlags := ⟨withFlag 1 on f.byte⟩

def withHasTorques (on : Bool) (f : CommandFlags) : CommandFlags := ⟨withFlag 2 on f.byte⟩

def withMotionGeneratorFinished (on : Bool) (f : CommandFlags) : CommandFlags :=
  ⟨withFlag 4 on f.byte⟩

def withControllerFinished (on : Bool) (f : CommandFlags) : CommandFlags :=
  ⟨withFlag 8 on f.byte⟩

def of (hasMotion hasTorques motionGeneratorFinished controllerFinished : Bool) : CommandFlags :=
  ((((⟨0⟩ : CommandFlags).withHasMotion hasMotion).withHasTorques hasTorques)
    |>.withMotionGeneratorFinished motionGeneratorFinished)
    |>.withControllerFinished controllerFinished

variable (m t g c : Bool)

@[simp] theorem hasMotion_of : (of m t g c).hasMotion = m := by
  cases m <;> cases t <;> cases g <;> cases c <;> rfl

@[simp] theorem hasTorques_of : (of m t g c).hasTorques = t := by
  cases m <;> cases t <;> cases g <;> cases c <;> rfl

@[simp] theorem motionGeneratorFinished_of : (of m t g c).motionGeneratorFinished = g := by
  cases m <;> cases t <;> cases g <;> cases c <;> rfl

@[simp] theorem controllerFinished_of : (of m t g c).controllerFinished = c := by
  cases m <;> cases t <;> cases g <;> cases c <;> rfl

end CommandFlags

end ArmSession.Wire
