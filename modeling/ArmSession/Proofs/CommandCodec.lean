import ArmSession.Proofs.CommandMessage
import ArmSession.Proofs.Layout
import ArmSession.Proofs.SignificantBits

/-!
# Commands and their messages

Every command comes back from its message. The other way round, a message that is accepted is
written again with its significant bits only: the parts that are there keep all theirs, and what
is reserved, or belongs to a part that is absent, becomes zero.
-/

namespace ArmSession

open Wire

/-- A finished flag counts when its part is there. -/
def Wire.CommandFlags.mask (f : CommandFlags) : UInt8 :=
  0b0011 ||| (if f.hasMotion then 0b0100 else 0) ||| (if f.hasTorques then 0b1000 else 0)

theorem Wire.CommandFlags.of_flags (f : CommandFlags) :
    CommandFlags.of f.hasMotion f.hasTorques (f.hasMotion && f.motionGeneratorFinished)
      (f.hasTorques && f.controllerFinished) = ⟨f.mask &&& f.byte⟩ := by
  obtain ⟨b⟩ := f
  revert b
  decide +kernel

/-- Widening the leading values again leaves their bytes and clears the others. -/
theorem Wire.bytesOfReals_resize_resize {n k : Nat} (v : Reals n) (h : k ≤ n) :
    bytesOfReals ((v.resize k).resize n) =
      masked (kept (8 * k) ++ cleared (8 * (n - k))) (bytesOfReals v) := by
  have hfront : ((bytesOfReals v).take (8 * k)).length = 8 * k := by
    rw [List.length_take, length_bytesOfReals]
    omega
  have hback : ((bytesOfReals v).drop (8 * k)).length = 8 * (n - k) := by
    rw [List.length_drop, length_bytesOfReals]
    omega
  calc bytesOfReals ((v.resize k).resize n)
      = (bytesOfReals v).take (8 * k) ++ cleared (8 * (n - k)) := by
        rw [bytesOfReals_resize _ h, bytesOfReals_resize_le v h]
        rfl
    _ = masked (kept (8 * k)) ((bytesOfReals v).take (8 * k)) ++
          masked (cleared (8 * (n - k))) ((bytesOfReals v).drop (8 * k)) := by
        rw [masked_kept hfront, masked_cleared hback]
    _ = masked (kept (8 * k) ++ cleared (8 * (n - k))) (bytesOfReals v) := by
        rw [← masked_append (by rw [hfront, length_kept]), List.take_append_drop]

theorem MotionKind.eq_code {b : UInt8} {k : MotionKind} (h : ofCode? b = some k) : b = k.code := by
  revert b
  cases k <;> decide +kernel

namespace RobotCommand

/-- There is no motion, flag and kind agreeing on that, or there is one of a known kind. -/
theorem Fields.motionPart_eq_ok {f : Fields} {part : Option MotionCommand}
    (h : f.motionPart = .ok part) :
    (f.flags.hasMotion = false ∧ f.kindCode = 0 ∧ part = none) ∨
      ∃ kind : MotionKind, f.flags.hasMotion = true ∧ f.kindCode = kind.code ∧
        part = some ⟨kind, ⟨f.motion.resize kind.size, f.flags.motionGeneratorFinished⟩⟩ := by
  unfold Fields.motionPart at h
  cases hflag : f.flags.hasMotion with
  | true =>
      cases hk : MotionKind.ofCode? f.kindCode with
      | none => simp [hflag, hk] at h
      | some kind =>
          simp only [hflag, hk, if_true, Except.ok.injEq] at h
          exact .inr ⟨kind, rfl, MotionKind.eq_code hk, h.symm⟩
  | false =>
      by_cases hk : f.kindCode = 0
      · simp only [hflag, hk, if_true, Bool.false_eq_true, if_false, Except.ok.injEq] at h
        exact .inl ⟨rfl, hk, h.symm⟩
      · simp [hflag, hk] at h

theorem Fields.check_eq_ok {f : Fields} {c : RobotCommand} (h : f.check = .ok c) :
    ∃ part, f.motionPart = .ok part ∧ c = ⟨f.messageId, part, f.torquePart⟩ := by
  unfold Fields.check at h
  cases hm : f.motionPart with
  | error e => simp [hm] at h
  | ok part =>
      simp only [hm, Except.ok.injEq] at h
      exact ⟨part, rfl, h.symm⟩

section Torques

variable (f : Fields)

theorem Fields.isSome_torquePart : f.torquePart.isSome = f.flags.hasTorques := by
  unfold torquePart
  cases f.flags.hasTorques <;> rfl

theorem Fields.finished_torquePart : f.torquePart.any Setpoint.finished =
    (f.flags.hasTorques && f.flags.controllerFinished) := by
  unfold torquePart
  cases f.flags.hasTorques <;> rfl

theorem Fields.values_torquePart : (f.torquePart.map (·.values)).getD (.zeros jointCount) =
    if f.flags.hasTorques then f.torques else .zeros jointCount := by
  unfold torquePart
  cases f.flags.hasTorques <;> rfl

end Torques

def Fields.significant (f : Fields) : Fields where
  messageId := f.messageId
  flags := ⟨f.flags.mask &&& f.flags.byte⟩
  kindCode := f.kindCode
  motion := (f.motion.resize (slotsUsed (MotionKind.ofCode? f.kindCode))).resize motionSlots
  torques := if f.flags.hasTorques then f.torques else .zeros jointCount

/-- An accepted command holds all that counts, and nothing else. -/
theorem Fields.fields_of_check {f : Fields} {c : RobotCommand} (h : f.check = .ok c) :
    c.fields = f.significant := by
  obtain ⟨part, hpart, rfl⟩ := check_eq_ok h
  have hflags := f.flags.of_flags
  obtain ⟨hmotion, hkind, rfl⟩ | ⟨kind, hmotion, hkind, rfl⟩ := motionPart_eq_ok hpart
  · rw [hmotion, Bool.false_and] at hflags
    have hslots : (f.motion.resize (slotsUsed (MotionKind.ofCode? f.kindCode))).resize motionSlots =
        .zeros motionSlots := by
      rw [hkind]
      rfl
    simp only [fields, RobotCommand.flags, significant, f.isSome_torquePart, f.finished_torquePart,
      f.values_torquePart, hflags, hslots, hkind, Option.isSome_none, Option.any_none,
      Option.map_none, Option.getD_none]
  · rw [hmotion, Bool.true_and] at hflags
    have hslots : (f.motion.resize (slotsUsed (MotionKind.ofCode? f.kindCode))).resize motionSlots =
        (f.motion.resize kind.size).resize motionSlots := by
      rw [hkind, MotionKind.ofCode?_code]
      rfl
    simp only [fields, RobotCommand.flags, significant, f.isSome_torquePart, f.finished_torquePart,
      f.values_torquePart, hflags, hslots, hkind, Option.isSome_some, Option.any_some,
      Option.map_some, Option.getD_some, MotionCommand.finished]

theorem slotsUsed_le (kind : Option MotionKind) : slotsUsed kind ≤ motionSlots := by
  cases kind with
  | none => exact Nat.zero_le _
  | some kind => exact kind.size_le

def bodyMask (flags : CommandFlags) (kindCode : UInt8) : Bytes :=
  let slots := slotsUsed (MotionKind.ofCode? kindCode)
  kept 8 ++ (flags.mask :: 0xff ::
    (kept (8 * slots) ++ cleared (8 * (motionSlots - slots)) ++
      if flags.hasTorques then kept (8 * jointCount) else cleared (8 * jointCount)))

theorem Fields.body_significant (f : Fields) :
    f.significant.body = masked (bodyMask f.flags f.kindCode) f.body := by
  have hslots := slotsUsed_le (MotionKind.ofCode? f.kindCode)
  have hmotion := bytesOfReals_resize_resize f.motion hslots
  have htorques : bytesOfReals (if f.flags.hasTorques then f.torques else .zeros jointCount) =
      masked (if f.flags.hasTorques then kept (8 * jointCount) else cleared (8 * jointCount))
        (bytesOfReals f.torques) := by
    cases f.flags.hasTorques with
    | true => exact (masked_kept (length_bytesOfReals _)).symm
    | false =>
        rw [if_neg Bool.false_ne_true, if_neg Bool.false_ne_true,
          masked_cleared (length_bytesOfReals _)]
        exact bytesOfReals_zeros jointCount
  rw [body, bodyMask, body, masked_append (by rw [length_kept, length_bytes64]),
    masked_kept (length_bytes64 _), masked_cons, masked_cons, and_ff, masked_append, ← hmotion,
    ← htorques]
  · rfl
  · rw [List.length_append, length_kept, length_cleared, length_bytesOfReals]
    omega

theorem layout : Layout Fields.read commandSize Fields.body where
  length_body := Fields.length_body
  read_body := Fields.read_body
  exists_body bs h := by
    obtain ⟨messageId, bs₁, rfl, h₁⟩ := exists_bytes64 186 h
    have hid : bs₁.length = 186 := h₁
    obtain ⟨flags, bs₂, rfl, h₂⟩ := exists_byte 185 hid
    obtain ⟨kindCode, bs₃, rfl, h₃⟩ := exists_byte 184 h₂
    obtain ⟨motion, bs₄, rfl, h₄⟩ := exists_bytesOfReals motionSlots 56 h₃
    obtain ⟨torques, bs₅, rfl, h₅⟩ := exists_bytesOfReals jointCount 0 h₄
    refine ⟨⟨messageId, ⟨flags⟩, kindCode, motion, torques⟩, ?_⟩
    rw [List.eq_nil_of_length_eq_zero h₅, List.append_nil]
    rfl

/-- The significant bits of a command message. The flags are its byte 12, the kind of motion its
byte 13. -/
def mask (m : Bytes) : Bytes := headerMask ++ bodyMask ⟨m.getD 12 0⟩ (m.getD 13 0)

theorem decode_eq (m : Bytes) :
    decode m = (decodeFields Fields.read .command commandSize m).bind Fields.check := by
  unfold decode
  cases decodeFields Fields.read .command commandSize m <;> rfl

theorem decode_eq_ok_iff {m : Bytes} {c : RobotCommand} : decode m = .ok c ↔
    ∃ f, decodeFields Fields.read .command commandSize m = .ok f ∧ f.check = .ok c := by
  rw [decode_eq]
  cases decodeFields Fields.read .command commandSize m <;> simp [Except.bind]

theorem encode_of_decode {m : Bytes} {c : RobotCommand} (h : decode m = .ok c) :
    c.encode = masked (mask m) m := by
  obtain ⟨f, hf, hc⟩ := decode_eq_ok_iff.1 h
  obtain ⟨-, flags, rfl⟩ := (fits_iff (by decide)).1 (layout.decodeFields_eq_ok_iff.1 hf)
  have hmask : mask (MessageKind.command.code :: flags :: (littleEndian 2 commandSize ++ f.body)) =
      headerMask ++ bodyMask f.flags f.kindCode := rfl
  rw [hmask, masked_header .command (by decide), ← f.body_significant, ← Fields.fields_of_check hc]
  rfl

/-- What is decoded is what was encoded, bit for bit, and an accepted message is written again
with its significant bits only, so it means the same. -/
theorem command_round_trip :
    (∀ c : RobotCommand, decode c.encode = .ok c) ∧
      (∀ (m : Bytes) (c : RobotCommand), decode m = .ok c → c.encode = masked (mask m) m) ∧
      ∀ m : Bytes, ((decode m).bind fun c => decode c.encode) = decode m := by
  refine ⟨decode_encode, fun m c h => encode_of_decode h, fun m => ?_⟩
  cases h : decode m with
  | error e => rfl
  | ok c => exact decode_encode c

/-- Seven values move the joints, with junk in the reserved bits, in the slots that are left and
in the torques, which are absent. -/
theorem command_round_trip_of_junk :
    let f : Fields := ⟨7, ⟨0b11111101⟩, 1, .replicate motionSlots ⟨0x7ff0dead0000beef⟩,
      .replicate jointCount ⟨0x7ff0dead0000beef⟩⟩
    let m : Bytes := 0x20 :: 0x55 :: (littleEndian 2 commandSize ++ f.body)
    let c : RobotCommand := ⟨7, some ⟨.jointPosition,
      ⟨.replicate jointCount ⟨0x7ff0dead0000beef⟩, true⟩⟩, none⟩
    decode m = .ok c ∧ c.encode = masked (mask m) m := by
  intro f m c
  have hfields : decodeFields Fields.read .command commandSize m = .ok f :=
    layout.decodeFields_eq_ok_iff.2 (.intro rfl f.length_body)
  have hcheck : f.check = .ok c := by unfold f c; rfl
  have h : decode m = .ok c := decode_eq_ok_iff.2 ⟨f, hfields, hcheck⟩
  exact ⟨h, command_round_trip.2.1 m c h⟩

end RobotCommand

end ArmSession
