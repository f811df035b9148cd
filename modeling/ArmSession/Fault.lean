/-!
# Faults that the controller reports

Why a controller refuses to go on with a motion.
-/

namespace ArmSession

inductive ControllerFault
  | jointPositionLimitsViolation
  | jointVelocityViolation
  | cartesianReflex
  | communicationConstraintsViolation
  | powerLimitViolation
  | torqueDiscontinuity
  | other
deriving DecidableEq

namespace ControllerFault

def code : ControllerFault → UInt8
  | jointPositionLimitsViolation => 1
  | jointVelocityViolation => 2
  | cartesianReflex => 3
  | communicationConstraintsViolation => 4
  | powerLimitViolation => 5
  | torqueDiscontinuity => 6
  | other => 255

def ofCode? (b : UInt8) : Option ControllerFault :=
  if b = 1 then some jointPositionLimitsViolation
  else if b = 2 then some jointVelocityViolation
  else if b = 3 then some cartesianReflex
  else if b = 4 then some communicationConstraintsViolation
  else if b = 5 then some powerLimitViolation
  else if b = 6 then some torqueDiscontinuity
  else if b = 255 then some other
  else none

def name : ControllerFault → String
  | jointPositionLimitsViolation => "JointPositionLimitsViolation"
  | jointVelocityViolation => "JointVelocityViolation"
  | cartesianReflex => "CartesianReflex"
  | communicationConstraintsViolation => "CommunicationConstraintsViolation"
  | powerLimitViolation => "PowerLimitViolation"
  | torqueDiscontinuity => "TorqueDiscontinuity"
  | other => "Other"

def text : ControllerFault → String
  | jointPositionLimitsViolation => "joint position limits violation"
  | jointVelocityViolation => "joint velocity violation"
  | cartesianReflex => "cartesian reflex"
  | communicationConstraintsViolation => "communication constraints violation"
  | powerLimitViolation => "power limit violation"
  | torqueDiscontinuity => "torque discontinuity"
  | other => "unspecified controller fault"

@[simp] theorem ofCode?_code (f : ControllerFault) : ofCode? f.code = some f := by
  cases f <;> rfl

end ControllerFault

end ArmSession
