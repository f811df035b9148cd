import ArmSession.Double
import ArmSession.Wire.Sizes

/-!
# What callbacks answer

A callback answers with one command: joint torques, or a set point of one of four kinds of
motion, which has as many values as its kind asks for. Any command may say that the motion
is finished.
-/

namespace ArmSession

inductive MotionKind
  | jointPosition
  | jointVelocity
  | cartesianPose
  | cartesianVelocity
deriving DecidableEq

namespace MotionKind

def code : MotionKind → UInt8
  | jointPosition => 1
  | jointVelocity => 2
  | cartesianPose => 3
  | cartesianVelocity => 4

def ofCode? (b : UInt8) : Option MotionKind :=
  if b = 1 then some jointPosition
  else if b = 2 then some jointVelocity
  else if b = 3 then some cartesianPose
  else if b = 4 then some cartesianVelocity
  else none

def name : MotionKind → String
  | jointPosition => "JointPosition"
  | jointVelocity => "JointVelocity"
  | cartesianPose => "CartesianPose"
  | cartesianVelocity => "CartesianVelocity"

abbrev size : MotionKind → Nat
  | jointPosition => jointCount
  | jointVelocity => jointCount
  | cartesianPose => poseSize
  | cartesianVelocity => twistSize

@[simp] theorem ofCode?_code (k : MotionKind) : ofCode? k.code = some k := by
  cases k <;> rfl

theorem size_le (k : MotionKind) : k.size ≤ Wire.motionSlots := by
  cases k <;> decide

end MotionKind

structure Setpoint (n : Nat) where
  values : Reals n
  finished : Bool
deriving DecidableEq

namespace Setpoint

variable {n : Nat}

def ongoing (values : Reals n) : Setpoint n := ⟨values, false⟩

def asFinished (p : Setpoint n) : Setpoint n := { p with finished := true }

def equal (p q : Setpoint n) : Bool := p.values.equal q.values && p.finished == q.finished

end Setpoint

abbrev Torques := Setpoint jointCount

structure MotionCommand where
  kind : MotionKind
  setpoint : Setpoint kind.size
deriving DecidableEq

namespace MotionCommand

def values (m : MotionCommand) : List Double := m.setpoint.values.toList

def finished (m : MotionCommand) : Bool := m.setpoint.finished

def equal (m n : MotionCommand) : Bool :=
  m.kind == n.kind && (m.values.zip n.values).all (fun (x, y) => x.equal y) &&
    m.finished == n.finished

end MotionCommand

/-- What a command is for: torques, or a motion of one kind. -/
inductive CommandKind
  | torques
  | motion (kind : MotionKind)
deriving DecidableEq

def CommandKind.name : CommandKind → String
  | torques => "Torques"
  | motion kind => "Motion(" ++ kind.name ++ ")"

inductive Command
  | torques (t : Torques)
  | motion (m : MotionCommand)
deriving DecidableEq

namespace Command

def kind : Command → CommandKind
  | torques _ => .torques
  | motion m => .motion m.kind

def values : Command → List Double
  | torques t => t.values.toList
  | motion m => m.values

def finished : Command → Bool
  | torques t => t.finished
  | motion m => m.finished

def isFinite (c : Command) : Bool := c.values.all Double.isFinite

def motion? : Command → Option MotionCommand
  | torques _ => none
  | motion m => some m

def torques? : Command → Option Torques
  | torques t => some t
  | motion _ => none

def ofSetpoint (kind : MotionKind) (p : Setpoint kind.size) : Command := .motion ⟨kind, p⟩

theorem motion?_of_kind {c : Command} {k : MotionKind} (h : c.kind = .motion k) :
    ∃ m, c.motion? = some m ∧ m.kind = k ∧ c = .motion m := by
  cases c with
  | torques t => simp [kind] at h
  | motion m => exact ⟨m, rfl, by simpa [kind] using h, rfl⟩

theorem torques?_of_kind {c : Command} (h : c.kind = .torques) :
    ∃ t, c.torques? = some t ∧ c = .torques t := by
  cases c with
  | torques t => exact ⟨t, rfl, rfl⟩
  | motion m => simp [kind] at h

end Command

end ArmSession
