import ArmSession.Wire.Kind

/-!
# Why a message is refused

One cause per refusal, with what the cause is about. The text of a cause names the sizes,
kinds or values in question.
-/

namespace ArmSession

inductive MessageError
  | truncated (expected actual : Nat)
  | invalidLength (kind : MessageKind) (expected actual : Nat)
  | unknownKind (code : UInt8)
  | unexpectedKind (expected actual : MessageKind)
  | invalidValue (field : String) (value : UInt8)
deriving DecidableEq

namespace MessageError

/-- Two upper-case hexadecimal digits. -/
def hexByte (b : UInt8) : String :=
  let digit (n : Nat) : Char := (Nat.digitChar n).toUpper
  String.ofList [digit (b.toNat / 16), digit (b.toNat % 16)]

def message : MessageError → String
  | truncated expected actual =>
    s!"Truncated message: expected at least {expected} bytes, got {actual}"
  | invalidLength kind expected actual =>
    s!"Invalid payload length for {kind.name}: expected {expected}, got {actual}"
  | unknownKind code => "Unknown message kind: 0x" ++ hexByte code
  | unexpectedKind expected actual =>
    s!"Unexpected message kind: expected {expected.name}, got {actual.name}"
  | invalidValue field value => s!"Invalid value for field {field}: {value}"

end MessageError

end ArmSession
