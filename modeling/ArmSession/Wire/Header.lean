import ArmSession.Wire.Bytes
import ArmSession.Wire.Sizes
import ArmSession.Wire.Error

/-!
# Headers and payloads

A header is the kind, a byte of flags that is written as zero and not looked at, and the size
of the payload in 16 bits. A message is accepted for reading only if its kind, the size it
declares and the size it has are all the expected ones, and these are checked in that order.
-/

namespace ArmSession.Wire

structure Header where
  kind : MessageKind
  payloadSize : UInt16
deriving DecidableEq

namespace Header

/-- A size that needs more than 16 bits loses its high bits. -/
def ofSize (kind : MessageKind) (size : Nat) : Header := ⟨kind, UInt16.ofNat size⟩

def encode (h : Header) : Bytes := [h.kind.code, 0] ++ bytes16 h.payloadSize

/-- The header at the front of `message`, and the bytes left unread: all of them when there
is no room for a header, all but the first when that is no kind. -/
def decode (message : Bytes) : Except MessageError Header × Bytes :=
  match message with
  | code :: flags :: low :: high :: rest =>
    match MessageKind.ofCode? code with
    | some kind => (.ok ⟨kind, UInt16.ofNat (ofLittleEndian [low, high])⟩, rest)
    | none => (.error (.unknownKind code), flags :: low :: high :: rest)
  | short => (.error (.truncated headerSize short.length), short)

theorem length_encode (h : Header) : h.encode.length = headerSize := rfl

/-- What follows a header does not matter for reading it. -/
theorem decode_encode (h : Header) (rest : Bytes) :
    decode (h.encode ++ rest) = (.ok h, rest) := by
  have hs : UInt16.ofNat (ofLittleEndian (bytes16 h.payloadSize)) = h.payloadSize := by
    rw [bytes16, ofLittleEndian_littleEndian, capacity_two,
      Nat.mod_eq_of_lt h.payloadSize.toNat_lt_size]
    exact UInt16.ofNat_toNat
  simp only [encode, bytes16, littleEndian, decode, List.cons_append, List.nil_append,
    MessageKind.ofCode?_code]
  exact congrArg (fun s => ((.ok ⟨h.kind, s⟩ : Except MessageError Header), rest)) hs

end Header

/-- The payload of a message of one kind, all of it and nothing more. -/
def payload (message : Bytes) (kind : MessageKind) (size : Nat) : Except MessageError Bytes :=
  match Header.decode message with
  | (.error e, _) => .error e
  | (.ok header, body) =>
    if header.kind ≠ kind then .error (.unexpectedKind kind header.kind)
    else if header.payloadSize.toNat ≠ size then
      .error (.invalidLength kind size header.payloadSize.toNat)
    else if body.length ≠ size then .error (.invalidLength kind size body.length)
    else .ok body

/-- Reads the fields of a payload. A reader that wants more than the payload has is a
truncated message. -/
def decodeFields {α : Type} (read : Bytes → Option (α × Bytes)) (kind : MessageKind)
    (size : Nat) (message : Bytes) : Except MessageError α :=
  match payload message kind size with
  | .error e => .error e
  | .ok body =>
    match read body with
    | some (fields, _) => .ok fields
    | none => .error (.truncated size body.length)

theorem payload_encode (kind : MessageKind) (size : Nat) (body : Bytes) (h : body.length = size)
    (hs : size < UInt16.size) :
    payload ((Header.ofSize kind size).encode ++ body) kind size = .ok body := by
  have hsize : (UInt16.ofNat size).toNat = size := UInt16.toNat_ofNat_of_lt' hs
  simp [payload, Header.decode_encode, Header.ofSize, h, hsize]

theorem decodeFields_encode {α : Type} {read : Bytes → Option (α × Bytes)} {fields : α}
    {body : Bytes} (hread : ∀ rest, read (body ++ rest) = some (fields, rest)) (kind : MessageKind)
    (size : Nat) (h : body.length = size) (hs : size < UInt16.size) :
    decodeFields read kind size ((Header.ofSize kind size).encode ++ body) = .ok fields := by
  have hwhole : read body = some (fields, []) := by simpa using hread []
  unfold decodeFields
  rw [payload_encode kind size body h hs]
  dsimp only
  rw [hwhole]

end ArmSession.Wire
