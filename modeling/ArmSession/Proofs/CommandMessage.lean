import ArmSession.RobotCommand
import ArmSession.Proofs.WireValues

/-!
# The layout of a command message

A command message has a fixed size: a header, the message id, the flags, the kind of motion,
sixteen slots for the motion and seven for the torques. A decoded message gives back the command
that it was made of, and the slots that a command does not use are zero.
-/

namespace ArmSession

open Wire

namespace RobotCommand

theorem Fields.read_body (f : Fields) (rest : Bytes) :
    Fields.read (f.body ++ rest) = some (f, rest) := by
  simp [Fields.read, Fields.body, read8, List.append_assoc]

theorem Fields.length_body (f : Fields) : f.body.length = commandSize := by
  simp only [Fields.body, commandSize, List.length_append, List.length_cons, length_bytes64,
    length_bytesOfReals]
  omega

theorem length_encode (c : RobotCommand) : c.encode.length = headerSize + commandSize := by
  rw [encode, List.length_append, Header.length_encode, Fields.length_body]

/-- Every command comes back from its message, bit for bit. -/
theorem decode_encode (c : RobotCommand) : decode c.encode = .ok c := by
  have hfields : decodeFields Fields.read .command commandSize c.encode = .ok c.fields :=
    decodeFields_encode c.fields.read_body .command commandSize c.fields.length_body (by decide)
  rw [decode, hfields]
  exact check_fields c

def motionBytes (message : Bytes) : Bytes :=
  (message.drop (headerSize + 8 + 1 + 1)).take (8 * motionSlots)

def torqueBytes (message : Bytes) : Bytes :=
  message.drop (headerSize + 8 + 1 + 1 + 8 * motionSlots)

theorem drop_encode (c : RobotCommand) : c.encode.drop (headerSize + 8 + 1 + 1) =
    bytesOfReals c.fields.motion ++ bytesOfReals c.fields.torques := by
  have hsplit : c.encode = ((Header.ofSize .command commandSize).encode ++
      (bytes64 c.fields.messageId ++ [c.fields.flags.byte, c.fields.kindCode])) ++
        (bytesOfReals c.fields.motion ++ bytesOfReals c.fields.torques) := by
    simp [encode, Fields.body, List.append_assoc]
  rw [hsplit]
  exact List.drop_left' (by simp [Header.length_encode, headerSize])

theorem motionBytes_encode (c : RobotCommand) :
    motionBytes c.encode = bytesOfReals c.fields.motion := by
  rw [motionBytes, drop_encode]
  exact List.take_left' (length_bytesOfReals _)

theorem torqueBytes_encode (c : RobotCommand) :
    torqueBytes c.encode = bytesOfReals c.fields.torques := by
  rw [torqueBytes, ← List.drop_drop, drop_encode]
  exact List.drop_left' (length_bytesOfReals _)

/-- How many motion slots a kind of motion fills, none when there is no motion. -/
def slotsUsed (kind : Option MotionKind) : Nat := (kind.map MotionKind.size).getD 0

theorem drop_motionBytes_encode (c : RobotCommand) :
    (motionBytes c.encode).drop (8 * slotsUsed (c.motion.map (·.kind))) =
      List.replicate (8 * (motionSlots - slotsUsed (c.motion.map (·.kind)))) 0 := by
  rw [motionBytes_encode]
  cases hm : c.motion with
  | none => simp [fields, hm, slotsUsed, bytesOfReals_zeros]
  | some m =>
      have hfields : c.fields.motion = m.setpoint.values.resize motionSlots := by simp [fields, hm]
      rw [hfields, bytesOfReals_resize _ m.kind.size_le]
      exact List.drop_left' (length_bytesOfReals _)

theorem torqueBytes_encode_of_none {c : RobotCommand} (h : c.torques = none) :
    torqueBytes c.encode = List.replicate (8 * jointCount) 0 := by
  rw [torqueBytes_encode, fields, h]
  exact bytesOfReals_zeros jointCount

end RobotCommand

end ArmSession
