import ArmSession.Wire.Header

/-!
# Handshake messages

The client asks once, with its protocol version and the port on which it wants states. The
controller answers with a status and its own version.
-/

namespace ArmSession

inductive ConnectStatus
  | success
  | incompatibleLibraryVersion
deriving DecidableEq

namespace ConnectStatus

def code : ConnectStatus → UInt8
  | success => 0
  | incompatibleLibraryVersion => 1

def ofCode? (b : UInt8) : Option ConnectStatus :=
  if b = 0 then some success
  else if b = 1 then some incompatibleLibraryVersion
  else none

def name : ConnectStatus → String
  | success => "Success"
  | incompatibleLibraryVersion => "IncompatibleLibraryVersion"

@[simp] theorem ofCode?_code (s : ConnectStatus) : ofCode? s.code = some s := by
  cases s <;> rfl

end ConnectStatus

structure ConnectRequest where
  version : UInt16
  realtimePort : UInt16
deriving DecidableEq

structure ConnectResponse where
  status : ConnectStatus
  version : UInt16
deriving DecidableEq

open Wire

namespace ConnectRequest

def body (r : ConnectRequest) : Bytes := bytes16 r.version ++ bytes16 r.realtimePort

def encode (r : ConnectRequest) : Bytes :=
  (Header.ofSize .connectRequest requestSize).encode ++ r.body

def read (bs : Bytes) : Option (ConnectRequest × Bytes) := do
  let (version, bs) ← read16 bs
  let (realtimePort, bs) ← read16 bs
  some (⟨version, realtimePort⟩, bs)

def decode (message : Bytes) : Except MessageError ConnectRequest :=
  decodeFields read .connectRequest requestSize message

theorem length_encode (r : ConnectRequest) : r.encode.length = headerSize + requestSize := rfl

theorem read_body (r : ConnectRequest) (rest : Bytes) : read (r.body ++ rest) = some (r, rest) := by
  simp only [read, body, List.append_assoc, Option.bind_eq_bind, (read16_eq_some_iff _ _ _).2 rfl,
    Option.bind_some]

/-- The controller reads the version and the port that the client wrote. -/
theorem decode_encode (r : ConnectRequest) : decode r.encode = .ok r :=
  decodeFields_encode r.read_body .connectRequest requestSize rfl (by decide)

end ConnectRequest

namespace ConnectResponse

/-- The bytes of a response before the status is understood. -/
structure Fields where
  status : UInt8
  reserved : UInt8
  version : UInt16
deriving DecidableEq

namespace Fields

def body (f : Fields) : Bytes := f.status :: f.reserved :: bytes16 f.version

def read (bs : Bytes) : Option (Fields × Bytes) := do
  let (status, bs) ← read8 bs
  let (reserved, bs) ← read8 bs
  let (version, bs) ← read16 bs
  some (⟨status, reserved, version⟩, bs)

theorem read_body (f : Fields) (rest : Bytes) : read (f.body ++ rest) = some (f, rest) := by
  simp only [read, body, List.cons_append, read8, Option.bind_eq_bind,
    (read16_eq_some_iff _ _ _).2 rfl, Option.bind_some]

def check (f : Fields) : Except MessageError ConnectResponse :=
  match ConnectStatus.ofCode? f.status with
  | some status => .ok ⟨status, f.version⟩
  | none => .error (.invalidValue "connect_status" f.status)

end Fields

def fields (r : ConnectResponse) : Fields := ⟨r.status.code, 0, r.version⟩

def encode (r : ConnectResponse) : Bytes :=
  (Header.ofSize .connectResponse responseSize).encode ++ r.fields.body

def decode (message : Bytes) : Except MessageError ConnectResponse :=
  match decodeFields Fields.read .connectResponse responseSize message with
  | .error e => .error e
  | .ok f => f.check

@[simp] theorem check_fields (r : ConnectResponse) : r.fields.check = .ok r := by
  simp [fields, Fields.check]

theorem decode_encode (r : ConnectResponse) : decode r.encode = .ok r := by
  have hfields : decodeFields Fields.read .connectResponse responseSize r.encode = .ok r.fields :=
    decodeFields_encode r.fields.read_body .connectResponse responseSize rfl (by decide)
  rw [decode, hfields]
  exact r.check_fields

end ConnectResponse

end ArmSession
