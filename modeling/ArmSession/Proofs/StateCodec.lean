import ArmSession.Proofs.Layout
import ArmSession.Proofs.SignificantBits
import ArmSession.Proofs.StateMessage

/-!
# States and their messages

A state comes back from its message with its time in whole microseconds, as far as 64 bits count
them. The other way round, a message that is accepted is written again with its significant bits
only: the two flags, and the fault code if there is a fault.
-/

namespace ArmSession

open Wire

namespace Duration

theorem ofMicros_micros (d : Duration) :
    ofMicros d.micros = ⟨d.nanos / 1000 % UInt64.size * 1000⟩ := by
  rw [ofMicros, micros, UInt64.toNat_ofNat']

@[simp] theorem micros_ofMicros (us : UInt64) : (ofMicros us).micros = us := by
  rw [micros, ofMicros, Nat.mul_div_cancel _ (by decide), UInt64.ofNat_toNat]

theorem ofMicros_micros_eq_iff {d : Duration} :
    ofMicros d.micros = d ↔ 1000 ∣ d.nanos ∧ d.nanos / 1000 < UInt64.size := by
  obtain ⟨nanos⟩ := d
  rw [ofMicros_micros, Duration.mk.injEq]
  dsimp only
  constructor
  · intro h
    have hlt : nanos / 1000 % UInt64.size < UInt64.size := Nat.mod_lt _ (by decide)
    omega
  · rintro ⟨hdvd, hlt⟩
    rw [Nat.mod_eq_of_lt hlt, Nat.div_mul_cancel hdvd]

end Duration

def Wire.StateFlags.mask : UInt8 := 0b11

theorem Wire.StateFlags.of_flags (f : StateFlags) :
    StateFlags.of f.motionFinished f.fault = ⟨StateFlags.mask &&& f.byte⟩ := by
  obtain ⟨b⟩ := f
  revert b
  decide +kernel

theorem ControllerFault.eq_code {b : UInt8} {fault : ControllerFault}
    (h : ofCode? b = some fault) : b = fault.code := by
  revert b
  cases fault <;> decide +kernel

namespace RobotState

/-- There is no fault, whatever the code, or there is a known one. -/
theorem Fields.fault_eq_ok {f : Fields} {part : Option ControllerFault} (h : f.fault = .ok part) :
    (f.flags.fault = false ∧ part = none) ∨
      ∃ fault : ControllerFault, f.flags.fault = true ∧ f.faultCode = fault.code ∧
        part = some fault := by
  unfold Fields.fault at h
  cases hflag : f.flags.fault with
  | true =>
      cases hc : ControllerFault.ofCode? f.faultCode with
      | none => simp [hflag, hc] at h
      | some fault =>
          simp only [hflag, hc, if_true, Except.ok.injEq] at h
          exact .inr ⟨fault, rfl, ControllerFault.eq_code hc, h.symm⟩
  | false =>
      simp only [hflag, Bool.false_eq_true, if_false, Except.ok.injEq] at h
      exact .inl ⟨rfl, h.symm⟩

def Fields.significant (f : Fields) : Fields :=
  { f with
    flags := ⟨StateFlags.mask &&& f.flags.byte⟩
    faultCode := if f.flags.fault then f.faultCode else 0 }

/-- An accepted state holds all that counts, and nothing else. -/
theorem Fields.fields_of_check {f : Fields} {s : RobotState} (h : f.check = .ok s) :
    s.fields = f.significant := by
  have hflags := f.flags.of_flags
  unfold Fields.check at h
  cases hf : f.fault with
  | error e => simp [hf] at h
  | ok part =>
      simp only [hf, Except.ok.injEq] at h
      subst h
      obtain ⟨hfault, rfl⟩ | ⟨fault, hfault, hcode, rfl⟩ := fault_eq_ok hf
      · rw [hfault] at hflags
        simp [fields, significant, hflags, hfault]
      · rw [hfault] at hflags
        simp [fields, significant, hflags, hfault, hcode]

def Fields.front (f : Fields) : Bytes :=
  bytes64 f.messageId ++ (bytes64 f.micros ++ (bytesOfReals f.jointPositions ++
  (bytesOfReals f.jointVelocities ++ (bytesOfReals f.jointTorques ++
  (bytesOfReals f.endEffectorPose ++ bytesOfReals f.externalWrench)))))

def frontSize : Nat := stateSize - 2

theorem Fields.length_front (f : Fields) : f.front.length = frontSize := by
  simp only [front, List.length_append, length_bytes64, length_bytesOfReals]
  rfl

theorem Fields.body_eq (f : Fields) : f.body = f.front ++ [f.flags.byte, f.faultCode] := by
  simp only [body, front, List.append_assoc]

def bodyMask (flags : StateFlags) : Bytes :=
  kept frontSize ++ [StateFlags.mask, if flags.fault then 0xff else 0]

theorem Fields.body_significant (f : Fields) :
    f.significant.body = masked (bodyMask f.flags) f.body := by
  have hfront : f.significant.front = f.front := rfl
  rw [body_eq, body_eq, bodyMask, masked_append (by rw [length_kept, length_front]),
    masked_kept f.length_front, hfront]
  cases hfault : f.flags.fault <;> simp [significant, hfault, masked, and_ff]

theorem layout : Layout Fields.read stateSize Fields.body where
  length_body := Fields.length_body
  read_body := Fields.read_body
  exists_body bs h := by
    obtain ⟨messageId, bs₁, rfl, h₁⟩ := exists_bytes64 354 h
    obtain ⟨micros, bs₂, rfl, h₂⟩ := exists_bytes64 346 h₁
    obtain ⟨jointPositions, bs₃, rfl, h₃⟩ := exists_bytesOfReals jointCount 290 h₂
    obtain ⟨jointVelocities, bs₄, rfl, h₄⟩ := exists_bytesOfReals jointCount 234 h₃
    obtain ⟨jointTorques, bs₅, rfl, h₅⟩ := exists_bytesOfReals jointCount 178 h₄
    obtain ⟨endEffectorPose, bs₆, rfl, h₆⟩ := exists_bytesOfReals poseSize 50 h₅
    obtain ⟨externalWrench, bs₇, rfl, h₇⟩ := exists_bytesOfReals twistSize 2 h₆
    obtain ⟨flags, bs₈, rfl, h₈⟩ := exists_byte 1 h₇
    obtain ⟨faultCode, bs₉, rfl, h₉⟩ := exists_byte 0 h₈
    refine ⟨⟨messageId, micros, jointPositions, jointVelocities, jointTorques, endEffectorPose,
      externalWrench, ⟨flags⟩, faultCode⟩, ?_⟩
    rw [List.eq_nil_of_length_eq_zero h₉]
    rfl

/-- The significant bits of a state message. The flags are its byte 364. -/
def mask (m : Bytes) : Bytes := headerMask ++ bodyMask ⟨m.getD 364 0⟩

theorem decode_eq (m : Bytes) :
    decode m = (decodeFields Fields.read .state stateSize m).bind Fields.check := by
  unfold decode
  cases decodeFields Fields.read .state stateSize m <;> rfl

theorem decode_eq_ok_iff {m : Bytes} {s : RobotState} : decode m = .ok s ↔
    ∃ f, decodeFields Fields.read .state stateSize m = .ok f ∧ f.check = .ok s := by
  rw [decode_eq]
  cases decodeFields Fields.read .state stateSize m <;> simp [Except.bind]

theorem Fields.getElem?_flags (f : Fields) : f.body[360]? = some f.flags.byte := by
  have hlength : f.front.length = 360 := f.length_front
  rw [body_eq, List.getElem?_append_right (Nat.le_of_eq hlength), hlength]
  rfl

theorem Fields.getElem?_faultCode (f : Fields) : f.body[361]? = some f.faultCode := by
  have hlength : f.front.length = 360 := f.length_front
  rw [body_eq, List.getElem?_append_right (by omega), hlength]
  rfl

theorem encode_of_decode {m : Bytes} {s : RobotState} (h : decode m = .ok s) :
    s.encode = masked (mask m) m := by
  obtain ⟨f, hf, hs⟩ := decode_eq_ok_iff.1 h
  obtain ⟨-, flags, rfl⟩ := (fits_iff (by decide)).1 (layout.decodeFields_eq_ok_iff.1 hf)
  have hflags :
      (MessageKind.state.code :: flags :: (littleEndian 2 stateSize ++ f.body)).getD 364 0 =
        f.flags.byte := by
    have hbyte : (MessageKind.state.code :: flags :: (littleEndian 2 stateSize ++ f.body))[364]? =
        f.body[360]? := rfl
    rw [List.getD_eq_getElem?_getD, hbyte, f.getElem?_flags]
    rfl
  rw [mask, hflags, masked_header .state (by decide), ← f.body_significant,
    ← Fields.fields_of_check hs]
  rfl

/-- Time apart, what is decoded is what was encoded, bit for bit, and an accepted message is
written again with its significant bits only. -/
theorem state_round_trip :
    (∀ s : RobotState,
      decode s.encode = .ok { s with time := ⟨s.time.nanos / 1000 % UInt64.size * 1000⟩ }) ∧
    (∀ s : RobotState, decode s.encode = .ok s ↔
      1000 ∣ s.time.nanos ∧ s.time.nanos / 1000 < UInt64.size) ∧
    ∀ (m : Bytes) (s : RobotState), decode m = .ok s → s.encode = masked (mask m) m := by
  refine ⟨fun s => ?_, fun s => ?_, fun m s h => encode_of_decode h⟩
  · rw [decode_encode, Duration.ofMicros_micros]
  · rw [decode_encode, ← Duration.ofMicros_micros_eq_iff, Except.ok.injEq]
    obtain ⟨_, time, _, _, _, _, _, _, _⟩ := s
    simp

/-- A fault code without a fault, and reserved flags. -/
theorem state_round_trip_of_junk :
    let f : Fields := { RobotState.initial.fields with flags := ⟨0b11111101⟩, faultCode := 0x99 }
    let m : Bytes := 0x10 :: 0x55 :: (littleEndian 2 stateSize ++ f.body)
    let s : RobotState := { RobotState.initial with motionFinished := true }
    decode m = .ok s ∧ s.encode = masked (mask m) m := by
  intro f m s
  have hfields : decodeFields Fields.read .state stateSize m = .ok f :=
    layout.decodeFields_eq_ok_iff.2 (.intro rfl f.length_body)
  have hcheck : f.check = .ok s := by unfold f s; rfl
  have h : decode m = .ok s := decode_eq_ok_iff.2 ⟨f, hfields, hcheck⟩
  exact ⟨h, state_round_trip.2.2 m s h⟩

end RobotState

end ArmSession
