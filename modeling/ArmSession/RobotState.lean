import ArmSession.Duration
import ArmSession.Fault
import ArmSession.Wire.Flags
import ArmSession.Wire.Header

/-!
# Robot states

The controller sends one state per cycle. Reading a state checks its form only: the sizes,
the kind, and the fault code if the fault flag is set. The values may be any doubles.

`Fields` holds the payload field by field, as it stands in the message. Fields and payload
bytes determine each other.
-/

namespace ArmSession

structure RobotState where
  messageId : UInt64
  time : Duration
  jointPositions : Reals jointCount
  jointVelocities : Reals jointCount
  jointTorques : Reals jointCount
  endEffectorPose : Reals poseSize
  externalWrench : Reals twistSize
  motionFinished : Bool
  fault : Option ControllerFault
deriving DecidableEq

open Wire

namespace RobotState

def identityPose : Reals poseSize :=
  ⟨(List.range poseSize).map fun i => if i % 5 = 0 then .one else .zero, by simp⟩

def initial : RobotState where
  messageId := 0
  time := .zero
  jointPositions := .zeros jointCount
  jointVelocities := .zeros jointCount
  jointTorques := .zeros jointCount
  endEffectorPose := identityPose
  externalWrench := .zeros twistSize
  motionFinished := false
  fault := none

def equal (s t : RobotState) : Bool :=
  s.messageId == t.messageId && s.time == t.time &&
  s.jointPositions.equal t.jointPositions && s.jointVelocities.equal t.jointVelocities &&
  s.jointTorques.equal t.jointTorques && s.endEffectorPose.equal t.endEffectorPose &&
  s.externalWrench.equal t.externalWrench &&
  s.motionFinished == t.motionFinished && s.fault == t.fault

structure Fields where
  messageId : UInt64
  micros : UInt64
  jointPositions : Reals jointCount
  jointVelocities : Reals jointCount
  jointTorques : Reals jointCount
  endEffectorPose : Reals poseSize
  externalWrench : Reals twistSize
  flags : StateFlags
  faultCode : UInt8
deriving DecidableEq

namespace Fields

def body (f : Fields) : Bytes :=
  bytes64 f.messageId ++ (bytes64 f.micros ++ (bytesOfReals f.jointPositions ++
  (bytesOfReals f.jointVelocities ++ (bytesOfReals f.jointTorques ++
  (bytesOfReals f.endEffectorPose ++ (bytesOfReals f.externalWrench ++
  [f.flags.byte, f.faultCode]))))))

def read (bs : Bytes) : Option (Fields × Bytes) := do
  let (messageId, bs) ← read64 bs
  let (micros, bs) ← read64 bs
  let (jointPositions, bs) ← readReals jointCount bs
  let (jointVelocities, bs) ← readReals jointCount bs
  let (jointTorques, bs) ← readReals jointCount bs
  let (endEffectorPose, bs) ← readReals poseSize bs
  let (externalWrench, bs) ← readReals twistSize bs
  let (flags, bs) ← read8 bs
  let (faultCode, bs) ← read8 bs
  some (⟨messageId, micros, jointPositions, jointVelocities, jointTorques, endEffectorPose,
    externalWrench, ⟨flags⟩, faultCode⟩, bs)

/-- The fault code counts only when the fault flag is set. -/
def fault (f : Fields) : Except MessageError (Option ControllerFault) :=
  if f.flags.fault then
    match ControllerFault.ofCode? f.faultCode with
    | some fault => .ok (some fault)
    | none => .error (.invalidValue "fault_code" f.faultCode)
  else .ok none

def check (f : Fields) : Except MessageError RobotState :=
  match f.fault with
  | .error e => .error e
  | .ok fault => .ok {
      messageId := f.messageId
      time := .ofMicros f.micros
      jointPositions := f.jointPositions
      jointVelocities := f.jointVelocities
      jointTorques := f.jointTorques
      endEffectorPose := f.endEffectorPose
      externalWrench := f.externalWrench
      motionFinished := f.flags.motionFinished
      fault }

end Fields

def fields (s : RobotState) : Fields where
  messageId := s.messageId
  micros := s.time.micros
  jointPositions := s.jointPositions
  jointVelocities := s.jointVelocities
  jointTorques := s.jointTorques
  endEffectorPose := s.endEffectorPose
  externalWrench := s.externalWrench
  flags := .of s.motionFinished s.fault.isSome
  faultCode := (s.fault.map ControllerFault.code).getD 0

def encode (s : RobotState) : Bytes := (Header.ofSize .state stateSize).encode ++ s.fields.body

def decode (message : Bytes) : Except MessageError RobotState :=
  match decodeFields Fields.read .state stateSize message with
  | .error e => .error e
  | .ok f => f.check

/-- Time is carried in whole microseconds; all else comes back as it was. -/
theorem check_fields (s : RobotState) :
    s.fields.check = .ok { s with time := .ofMicros s.time.micros } := by
  obtain ⟨_, _, _, _, _, _, _, _, fault⟩ := s
  cases fault <;> simp [fields, Fields.check, Fields.fault]

end RobotState

end ArmSession
