import ArmSession.Session

/-!
# Control with one kind of command

Each way of controlling the arm has a function of its own, whose callbacks can only answer
with set points of the right size. Where both callbacks are given, the motion callback is
asked first in every cycle, although the torque callback comes first here.
-/

namespace ArmSession

abbrev SetpointCallback (ρ : Type) (n : Nat) := RobotState → Duration → ρ → Setpoint n × ρ

def Callback.answering {ρ α : Type} (command : α → Command)
    (callback : RobotState → Duration → ρ → α × ρ) : Callback ρ :=
  fun state period user =>
    let (answer, user) := callback state period user
    (command answer, user)

namespace Session

variable {κ σ ρ : Type} [Link σ] (s : Session κ σ)

def controlTorques (torque : SetpointCallback ρ jointCount) (user : ρ) : Outcome κ σ ρ Unit :=
  s.control .torqueOnly none (some (.answering .torques torque)) user

/-- The kind of motion decides the mode, and the commands are of the kind that `command` makes. -/
def controlMotion {n : Nat} (kind : MotionKind) (command : Setpoint n → Command)
    (motion : SetpointCallback ρ n) (user : ρ) : Outcome κ σ ρ Unit :=
  s.control (.motionOnly kind) (some (.answering command motion)) none user

def controlMotionWithTorques {n : Nat} (kind : MotionKind) (command : Setpoint n → Command)
    (torque : SetpointCallback ρ jointCount) (motion : SetpointCallback ρ n) (user : ρ) :
    Outcome κ σ ρ Unit :=
  s.control (.motionWithTorque kind) (some (.answering command motion))
    (some (.answering .torques torque)) user

def controlJointPositions (motion : SetpointCallback ρ jointCount) (user : ρ) :
    Outcome κ σ ρ Unit :=
  s.controlMotion .jointPosition (.ofSetpoint .jointPosition) motion user

def controlJointVelocities (motion : SetpointCallback ρ jointCount) (user : ρ) :
    Outcome κ σ ρ Unit :=
  s.controlMotion .jointVelocity (.ofSetpoint .jointVelocity) motion user

def controlCartesianPose (motion : SetpointCallback ρ poseSize) (user : ρ) :
    Outcome κ σ ρ Unit :=
  s.controlMotion .cartesianPose (.ofSetpoint .cartesianPose) motion user

def controlCartesianVelocities (motion : SetpointCallback ρ twistSize) (user : ρ) :
    Outcome κ σ ρ Unit :=
  s.controlMotion .cartesianVelocity (.ofSetpoint .cartesianVelocity) motion user

def controlTorquesAndJointPositions (torque : SetpointCallback ρ jointCount)
    (motion : SetpointCallback ρ jointCount) (user : ρ) : Outcome κ σ ρ Unit :=
  s.controlMotionWithTorques .jointPosition (.ofSetpoint .jointPosition) torque motion user

def controlTorquesAndJointVelocities (torque : SetpointCallback ρ jointCount)
    (motion : SetpointCallback ρ jointCount) (user : ρ) : Outcome κ σ ρ Unit :=
  s.controlMotionWithTorques .jointVelocity (.ofSetpoint .jointVelocity) torque motion user

def controlTorquesAndCartesianPose (torque : SetpointCallback ρ jointCount)
    (motion : SetpointCallback ρ poseSize) (user : ρ) : Outcome κ σ ρ Unit :=
  s.controlMotionWithTorques .cartesianPose (.ofSetpoint .cartesianPose) torque motion user

def controlTorquesAndCartesianVelocities (torque : SetpointCallback ρ jointCount)
    (motion : SetpointCallback ρ twistSize) (user : ρ) : Outcome κ σ ρ Unit :=
  s.controlMotionWithTorques .cartesianVelocity (.ofSetpoint .cartesianVelocity) torque motion user

end Session

end ArmSession
