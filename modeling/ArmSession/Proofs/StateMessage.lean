import ArmSession.RobotState
import ArmSession.Proofs.WireValues

/-!
# The layout of a state message

A state message holds the values of a state in a fixed order. Decoding gives the state back, with
its time in whole microseconds.
-/

namespace ArmSession.RobotState

open Wire

theorem Fields.read_body (f : Fields) (rest : Bytes) :
    Fields.read (f.body ++ rest) = some (f, rest) := by
  simp [Fields.read, Fields.body, read8, List.append_assoc]

theorem Fields.length_body (f : Fields) : f.body.length = stateSize := by
  simp only [Fields.body, stateSize, List.length_append, List.length_cons, List.length_nil,
    length_bytes64, length_bytesOfReals]
  omega

theorem length_encode (s : RobotState) : s.encode.length = headerSize + stateSize := by
  rw [encode, List.length_append, Header.length_encode, Fields.length_body]

theorem decode_encode (s : RobotState) :
    decode s.encode = .ok { s with time := .ofMicros s.time.micros } := by
  have hfields : decodeFields Fields.read .state stateSize s.encode = .ok s.fields :=
    decodeFields_encode s.fields.read_body .state stateSize s.fields.length_body (by decide)
  rw [decode, hfields]
  exact check_fields s

theorem decode_encode_of_zero {s : RobotState} (h : s.time = .zero) :
    decode s.encode = .ok s := by
  have htime : Duration.ofMicros s.time.micros = s.time := by
    rw [h]
    decide
  rw [decode_encode, htime]

end ArmSession.RobotState
