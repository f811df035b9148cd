/-!
# Kinds of messages

The first byte of a message tells its kind. The client sends requests and commands, the
controller responses and states.
-/

namespace ArmSession

inductive MessageKind
  | connectRequest
  | state
  | command
  | connectResponse
deriving DecidableEq

namespace MessageKind

def code : MessageKind → UInt8
  | connectRequest => 0x01
  | state => 0x10
  | command => 0x20
  | connectResponse => 0x81

def ofCode? (b : UInt8) : Option MessageKind :=
  if b = 0x01 then some connectRequest
  else if b = 0x10 then some state
  else if b = 0x20 then some command
  else if b = 0x81 then some connectResponse
  else none

def name : MessageKind → String
  | connectRequest => "ConnectRequest"
  | state => "State"
  | command => "Command"
  | connectResponse => "ConnectResponse"

@[simp] theorem ofCode?_code (k : MessageKind) : ofCode? k.code = some k := by
  cases k <;> rfl

theorem ofCode?_eq_some_iff (b : UInt8) (k : MessageKind) : ofCode? b = some k ↔ b = k.code := by
  constructor
  · intro h
    unfold ofCode? at h
    split at h
    · cases h; assumption
    · split at h
      · cases h; assumption
      · split at h
        · cases h; assumption
        · split at h
          · cases h; assumption
          · cases h
  · rintro rfl
    exact ofCode?_code k

end MessageKind

end ArmSession
