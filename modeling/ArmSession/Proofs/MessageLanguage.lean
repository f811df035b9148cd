import ArmSession.Wire.Handshake
import ArmSession.Proofs.CommandCodec
import ArmSession.Proofs.StateCodec

/-!
# Which messages are accepted, and why others are not

Four kinds of messages are decoded in the same way: header and size first, then the fields, and at
last the one field, if any, that may hold a value without meaning. `Refused` tells by the bytes of
a message alone whether it is refused and for what; `Accepted` describes all the others. Reading
the fields always takes the whole payload, and no message of one kind passes for another.
-/

namespace ArmSession

open Wire

theorem ControllerFault.ofCode?_eq_none_iff (b : UInt8) :
    ofCode? b = none ↔ b ∉ [1, 2, 3, 4, 5, 6, 255] := by
  revert b
  decide +kernel

theorem MotionKind.ofCode?_eq_none_iff (b : UInt8) : ofCode? b = none ↔ b = 0 ∨ 4 < b := by
  revert b
  decide +kernel

theorem ConnectStatus.ofCode?_eq_none_iff (b : UInt8) : ofCode? b = none ↔ 1 < b := by
  revert b
  decide +kernel

theorem ConnectRequest.layout : Layout ConnectRequest.read requestSize ConnectRequest.body where
  length_body _ := rfl
  read_body := ConnectRequest.read_body
  exists_body bs h := by
    obtain ⟨version, bs₁, rfl, h₁⟩ := exists_bytes16 2 h
    obtain ⟨realtimePort, bs₂, rfl, h₂⟩ := exists_bytes16 0 h₁
    refine ⟨⟨version, realtimePort⟩, ?_⟩
    rw [List.eq_nil_of_length_eq_zero h₂, List.append_nil]
    rfl

theorem ConnectResponse.layout :
    Layout ConnectResponse.Fields.read responseSize ConnectResponse.Fields.body where
  length_body _ := rfl
  read_body := ConnectResponse.Fields.read_body
  exists_body bs h := by
    obtain ⟨status, bs₁, rfl, h₁⟩ := exists_byte 3 h
    obtain ⟨reserved, bs₂, rfl, h₂⟩ := exists_byte 2 h₁
    obtain ⟨version, bs₃, rfl, h₃⟩ := exists_bytes16 0 h₂
    refine ⟨⟨status, reserved, version⟩, ?_⟩
    rw [List.eq_nil_of_length_eq_zero h₃, List.append_nil]
    rfl

theorem ConnectRequest.decode_eq (m : Bytes) :
    decode m = (decodeFields ConnectRequest.read .connectRequest requestSize m).bind .ok := by
  unfold decode
  cases decodeFields ConnectRequest.read .connectRequest requestSize m <;> rfl

theorem ConnectResponse.decode_eq (m : Bytes) :
    decode m = (decodeFields Fields.read .connectResponse responseSize m).bind Fields.check := by
  unfold decode
  cases decodeFields Fields.read .connectResponse responseSize m <;> rfl

namespace MessageKind

abbrev Content : MessageKind → Type
  | connectRequest => ConnectRequest
  | state => RobotState
  | command => RobotCommand
  | connectResponse => ConnectResponse

abbrev Fields : MessageKind → Type
  | connectRequest => ConnectRequest
  | state => RobotState.Fields
  | command => RobotCommand.Fields
  | connectResponse => ConnectResponse.Fields

def payloadSize : MessageKind → Nat
  | connectRequest => 4
  | state => 362
  | command => 194
  | connectResponse => 4

def encode : (k : MessageKind) → k.Content → Bytes
  | connectRequest => ConnectRequest.encode
  | state => RobotState.encode
  | command => RobotCommand.encode
  | connectResponse => ConnectResponse.encode

def decode : (k : MessageKind) → Bytes → Except MessageError k.Content
  | connectRequest => ConnectRequest.decode
  | state => RobotState.decode
  | command => RobotCommand.decode
  | connectResponse => ConnectResponse.decode

def readFields : (k : MessageKind) → Bytes → Option (k.Fields × Bytes)
  | connectRequest => ConnectRequest.read
  | state => RobotState.Fields.read
  | command => RobotCommand.Fields.read
  | connectResponse => ConnectResponse.Fields.read

def body : (k : MessageKind) → k.Fields → Bytes
  | connectRequest => ConnectRequest.body
  | state => RobotState.Fields.body
  | command => RobotCommand.Fields.body
  | connectResponse => ConnectResponse.Fields.body

def check : (k : MessageKind) → k.Fields → Except MessageError k.Content
  | connectRequest => .ok
  | state => RobotState.Fields.check
  | command => RobotCommand.Fields.check
  | connectResponse => ConnectResponse.Fields.check

variable (k : MessageKind)

theorem layout : Layout k.readFields k.payloadSize k.body := by
  cases k with
  | connectRequest => exact ConnectRequest.layout
  | state => exact RobotState.layout
  | command => exact RobotCommand.layout
  | connectResponse => exact ConnectResponse.layout

theorem decode_eq (m : Bytes) :
    k.decode m = (decodeFields k.readFields k k.payloadSize m).bind k.check := by
  cases k with
  | connectRequest => exact ConnectRequest.decode_eq m
  | state => exact RobotState.decode_eq m
  | command => exact RobotCommand.decode_eq m
  | connectResponse => exact ConnectResponse.decode_eq m

theorem exists_encode (x : k.Content) :
    ∃ low high body, k.encode x = k.code :: 0 :: low :: high :: body := by
  cases k with
  | connectRequest => exact ⟨_, _, _, rfl⟩
  | state => exact ⟨_, _, _, rfl⟩
  | command => exact ⟨_, _, _, rfl⟩
  | connectResponse => exact ⟨_, _, _, rfl⟩

/-- A field of a payload has a value that means nothing. Of a request there is none. -/
inductive BadField : MessageKind → Bytes → String → UInt8 → Prop
  | faultCode {body : Bytes} {flags code : UInt8} (hflags : body[360]? = some flags)
      (hcode : body[361]? = some code) (faulted : StateFlags.fault ⟨flags⟩ = true)
      (unknown : code ∉ [1, 2, 3, 4, 5, 6, 255]) : BadField .state body "fault_code" code
  | motionKind {body : Bytes} {flags code : UInt8} (hflags : body[8]? = some flags)
      (hcode : body[9]? = some code)
      (bad : ¬(CommandFlags.hasMotion ⟨flags⟩ = true ↔ code ≠ 0) ∨ 4 < code) :
      BadField .command body "motion_kind" code
  | status {body : Bytes} {code : UInt8} (hcode : body[0]? = some code) (unknown : 1 < code) :
      BadField .connectResponse body "connect_status" code

end MessageKind

theorem RobotState.Fields.check_eq_error_iff {f : Fields} {e : MessageError} :
    f.check = .error e ↔ (f.flags.fault = true ∧ f.faultCode ∉ [1, 2, 3, 4, 5, 6, 255]) ∧
      e = .invalidValue "fault_code" f.faultCode := by
  rw [← ControllerFault.ofCode?_eq_none_iff]
  unfold check Fields.fault
  cases f.flags.fault with
  | false => simp
  | true => cases ControllerFault.ofCode? f.faultCode <;> simp [eq_comm]

theorem RobotCommand.Fields.check_eq_error_iff {f : Fields} {e : MessageError} :
    f.check = .error e ↔
      (¬(f.flags.hasMotion = true ↔ f.kindCode ≠ 0) ∨ 4 < f.kindCode) ∧
        e = .invalidValue "motion_kind" f.kindCode := by
  have hnone := MotionKind.ofCode?_eq_none_iff f.kindCode
  unfold check motionPart
  cases f.flags.hasMotion with
  | false =>
      have hzero : ¬ (4 : UInt8) < 0 := by decide
      by_cases hk : f.kindCode = 0
      · simp [hk, hzero]
      · simp [hk, eq_comm]
  | true =>
      cases hk : MotionKind.ofCode? f.kindCode with
      | none =>
          rw [hk] at hnone
          simp [hnone.1 rfl, eq_comm]
      | some kind =>
          have hknown : ¬(f.kindCode = 0 ∨ 4 < f.kindCode) := by
            intro h
            rw [hnone.2 h] at hk
            cases hk
          simp [not_or.1 hknown]

theorem ConnectResponse.Fields.check_eq_error_iff {f : Fields} {e : MessageError} :
    f.check = .error e ↔ 1 < f.status ∧ e = .invalidValue "connect_status" f.status := by
  rw [← ConnectStatus.ofCode?_eq_none_iff]
  unfold check
  cases ConnectStatus.ofCode? f.status <;> simp [eq_comm]

namespace MessageKind

theorem check_eq_error_iff (k : MessageKind) (f : k.Fields) (e : MessageError) :
    k.check f = .error e ↔
      ∃ field value, BadField k (k.body f) field value ∧ e = .invalidValue field value := by
  cases k with
  | connectRequest =>
      constructor
      · intro h
        cases h
      · rintro ⟨_, _, h, -⟩
        cases h
  | state =>
      refine RobotState.Fields.check_eq_error_iff.trans ⟨?_, ?_⟩
      · rintro ⟨⟨hfault, hunknown⟩, rfl⟩
        exact ⟨_, _, .faultCode (RobotState.Fields.getElem?_flags f)
          (RobotState.Fields.getElem?_faultCode f) hfault hunknown, rfl⟩
      · rintro ⟨_, _, h, rfl⟩
        cases h with
        | faultCode hflags hcode hfault hunknown =>
            cases hflags.symm.trans (RobotState.Fields.getElem?_flags f)
            cases hcode.symm.trans (RobotState.Fields.getElem?_faultCode f)
            exact ⟨⟨hfault, hunknown⟩, rfl⟩
  | command =>
      refine RobotCommand.Fields.check_eq_error_iff.trans ⟨?_, ?_⟩
      · rintro ⟨hbad, rfl⟩
        exact ⟨_, _, .motionKind rfl rfl hbad, rfl⟩
      · rintro ⟨_, _, h, rfl⟩
        cases h with
        | motionKind hflags hcode hbad =>
            cases hflags
            cases hcode
            exact ⟨hbad, rfl⟩
  | connectResponse =>
      refine ConnectResponse.Fields.check_eq_error_iff.trans ⟨?_, ?_⟩
      · rintro ⟨hunknown, rfl⟩
        exact ⟨_, _, .status rfl hunknown, rfl⟩
      · rintro ⟨_, _, h, rfl⟩
        cases h with
        | status hcode hunknown =>
            cases hcode
            exact ⟨hunknown, rfl⟩

/-- Why a message is not accepted. A field is looked at only in a message that fits. -/
inductive Refused (k : MessageKind) (m : Bytes) : MessageError → Prop
  | misfit {e : MessageError} (h : Misfit k k.payloadSize m e) : Refused k m e
  | badField {body : Bytes} {field : String} {value : UInt8} (fits : Fits k k.payloadSize m body)
      (bad : BadField k body field value) : Refused k m (.invalidValue field value)

variable {k : MessageKind} {m : Bytes}

/-- A message that fits is decided by its one field that may be bad. -/
theorem decode_of_fits {body : Bytes} (h : Fits k k.payloadSize m body) :
    ∃ f, body = k.body f ∧ k.readFields body = some (f, []) ∧ k.decode m = k.check f := by
  obtain ⟨f, hbody, hread, hfields⟩ := k.layout.exists_read h
  refine ⟨f, hbody, hread, ?_⟩
  rw [decode_eq, hfields]
  rfl

theorem decode_of_refused {e : MessageError} (h : Refused k m e) : k.decode m = .error e := by
  cases h with
  | misfit h =>
      rw [decode_eq, k.layout.decodeFields_eq_error_iff.2 h]
      rfl
  | badField fits bad =>
      obtain ⟨f, rfl, -, hdecode⟩ := decode_of_fits fits
      rw [hdecode, check_eq_error_iff]
      exact ⟨_, _, bad, rfl⟩

theorem decode_eq_error_iff {e : MessageError} : k.decode m = .error e ↔ Refused k m e := by
  refine ⟨fun h => ?_, decode_of_refused⟩
  obtain ⟨e', he'⟩ | ⟨body, hbody⟩ := misfit_or_fits k k.payloadSize m
  · rw [decode_of_refused (.misfit he')] at h
    cases h
    exact .misfit he'
  · obtain ⟨f, rfl, -, hdecode⟩ := decode_of_fits hbody
    rw [hdecode] at h
    obtain ⟨field, value, hbad, rfl⟩ := (check_eq_error_iff k f e).1 h
    exact .badField hbody hbad

theorem exists_decode_eq_ok_iff : (∃ x, k.decode m = .ok x) ↔
    ∃ body, Fits k k.payloadSize m body ∧ ∀ field value, ¬BadField k body field value := by
  constructor
  · rintro ⟨x, hx⟩
    obtain ⟨e, he⟩ | ⟨body, hbody⟩ := misfit_or_fits k k.payloadSize m
    · rw [decode_of_refused (.misfit he)] at hx
      cases hx
    · refine ⟨body, hbody, fun field value hbad => ?_⟩
      rw [decode_of_refused (.badField hbody hbad)] at hx
      cases hx
  · rintro ⟨body, hbody, hgood⟩
    obtain ⟨f, rfl, -, hdecode⟩ := decode_of_fits hbody
    cases hf : k.check f with
    | ok x => exact ⟨x, hdecode.trans hf⟩
    | error e =>
        obtain ⟨field, value, hbad, -⟩ := (check_eq_error_iff k f e).1 hf
        exact absurd hbad (hgood field value)

theorem decode_encode_of_ne {k' : MessageKind} (x : k'.Content) (h : k' ≠ k) :
    k.decode (k'.encode x) = .error (.unexpectedKind k k') := by
  obtain ⟨low, high, body, hx⟩ := k'.exists_encode x
  rw [hx]
  exact decode_of_refused (.misfit (.unexpectedKind h))

/-- For each kind of message: what is refused, with the cause that is given, what is accepted,
that reading a message that fits takes its whole payload, and that a message of one kind is refused
as such by all the others. -/
theorem decode_language (k : MessageKind) (m : Bytes) :
    (∀ e, k.decode m = .error e ↔ Refused k m e) ∧
    ((∃ x, k.decode m = .ok x) ↔
      ∃ body, Fits k k.payloadSize m body ∧ ∀ field value, ¬BadField k body field value) ∧
    (∀ body, payload m k k.payloadSize = .ok body → body.length = k.payloadSize ∧
      ∃ f, k.readFields body = some (f, []) ∧ k.decode m = k.check f) ∧
    ∀ (k' : MessageKind) (x : k'.Content), k' ≠ k →
      k.decode (k'.encode x) = .error (.unexpectedKind k k') := by
  refine ⟨fun e => decode_eq_error_iff, exists_decode_eq_ok_iff, fun body h => ?_,
    fun k' x h => decode_encode_of_ne x h⟩
  have hfits := payload_eq_ok_iff.1 h
  obtain ⟨f, -, hread, hdecode⟩ := decode_of_fits hfits
  exact ⟨hfits.length_eq, f, hread, hdecode⟩

/-- A command whose motion is not flagged, read to its end before it is refused. -/
theorem decode_language_of_unflagged_motion :
    let f : RobotCommand.Fields := ⟨7, ⟨0⟩, 2, .zeros motionSlots, .zeros jointCount⟩
    let m : Bytes := 0x20 :: 0 :: (littleEndian 2 commandSize ++ f.body)
    (payload m .command 194 = .ok f.body ∧ f.body.length = 194 ∧
      ∃ g, readFields .command f.body = some (g, []) ∧ decode .command m = check .command g) ∧
    state ≠ command ∧
      decode .command (encode .state RobotState.initial) =
        .error (.unexpectedKind .command .state) := by
  intro f m
  have hlanguage := decode_language .command m
  have hpayload : payload m .command 194 = .ok f.body := payload_of_fits (.intro rfl f.length_body)
  have hne : state ≠ command := by decide
  exact ⟨⟨hpayload, hlanguage.2.2.1 f.body hpayload⟩, hne,
    hlanguage.2.2.2 .state RobotState.initial hne⟩

end MessageKind

end ArmSession
