import ArmSession.Motion
import ArmSession.Wire.Flags
import ArmSession.Wire.Header

/-!
# Robot commands

One command answers one state: at most one motion and at most one set of torques, in a
message of fixed size. Motion values fill the leading slots and zeros the others; a part that
is absent is all zeros. The kind of motion is zero exactly when there is none.
-/

namespace ArmSession

structure RobotCommand where
  messageId : UInt64
  motion : Option MotionCommand
  torques : Option Torques
deriving DecidableEq

open Wire

namespace RobotCommand

/-- Either part may end the motion. -/
def finished (c : RobotCommand) : Bool :=
  c.motion.any MotionCommand.finished || c.torques.any Setpoint.finished

def equal (c d : RobotCommand) : Bool :=
  let both {α : Type} (eq : α → α → Bool) : Option α → Option α → Bool
    | none, none => true
    | some x, some y => eq x y
    | _, _ => false
  c.messageId == d.messageId && both MotionCommand.equal c.motion d.motion &&
    both Setpoint.equal c.torques d.torques

structure Fields where
  messageId : UInt64
  flags : CommandFlags
  kindCode : UInt8
  motion : Reals motionSlots
  torques : Reals jointCount
deriving DecidableEq

namespace Fields

def body (f : Fields) : Bytes :=
  bytes64 f.messageId ++ (f.flags.byte :: f.kindCode ::
    (bytesOfReals f.motion ++ bytesOfReals f.torques))

def read (bs : Bytes) : Option (Fields × Bytes) := do
  let (messageId, bs) ← read64 bs
  let (flags, bs) ← read8 bs
  let (kindCode, bs) ← read8 bs
  let (motion, bs) ← readReals motionSlots bs
  let (torques, bs) ← readReals jointCount bs
  some (⟨messageId, ⟨flags⟩, kindCode, motion, torques⟩, bs)

/-- A motion is flagged exactly when its kind is given, and the kind is a known one. -/
def motionPart (f : Fields) : Except MessageError (Option MotionCommand) :=
  if f.flags.hasMotion then
    match MotionKind.ofCode? f.kindCode with
    | some kind => .ok (some ⟨kind, ⟨f.motion.resize kind.size, f.flags.motionGeneratorFinished⟩⟩)
    | none => .error (.invalidValue "motion_kind" f.kindCode)
  else if f.kindCode = 0 then .ok none
  else .error (.invalidValue "motion_kind" f.kindCode)

def torquePart (f : Fields) : Option Torques :=
  if f.flags.hasTorques then some ⟨f.torques, f.flags.controllerFinished⟩ else none

def check (f : Fields) : Except MessageError RobotCommand :=
  match f.motionPart with
  | .error e => .error e
  | .ok motion => .ok ⟨f.messageId, motion, f.torquePart⟩

end Fields

def flags (c : RobotCommand) : CommandFlags :=
  .of c.motion.isSome c.torques.isSome (c.motion.any MotionCommand.finished)
    (c.torques.any Setpoint.finished)

def fields (c : RobotCommand) : Fields where
  messageId := c.messageId
  flags := c.flags
  kindCode := (c.motion.map (·.kind.code)).getD 0
  motion := (c.motion.map (·.setpoint.values.resize motionSlots)).getD (.zeros motionSlots)
  torques := (c.torques.map (·.values)).getD (.zeros jointCount)

def encode (c : RobotCommand) : Bytes :=
  (Header.ofSize .command commandSize).encode ++ c.fields.body

def decode (message : Bytes) : Except MessageError RobotCommand :=
  match decodeFields Fields.read .command commandSize message with
  | .error e => .error e
  | .ok f => f.check

/-- A command is told by its fields, bit for bit. -/
theorem check_fields (c : RobotCommand) : c.fields.check = .ok c := by
  obtain ⟨id, motion, torques⟩ := c
  have ht : (⟨id, motion, torques⟩ : RobotCommand).fields.torquePart = torques := by
    cases torques <;> simp [fields, flags, Fields.torquePart]
  have hm : (⟨id, motion, torques⟩ : RobotCommand).fields.motionPart = .ok motion := by
    cases motion with
    | none => simp [fields, flags, Fields.motionPart]
    | some m =>
        simp [fields, flags, Fields.motionPart, Reals.resize_resize _ m.kind.size_le,
          MotionCommand.finished]
  rw [Fields.check, hm, ht]
  rfl

end RobotCommand

end ArmSession
