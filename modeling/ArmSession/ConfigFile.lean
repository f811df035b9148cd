import ArmSession.Config
import ArmSession.Toml.Document
import ArmSession.Wire.Bytes

/-!
# Configuration files

A configuration is written one `key = value` to a line. When one is read, keys that are left
out keep their standard values and keys of other names are passed over. The text has to be a
document, its values have to fit, and the configuration has to be valid, in that order.
-/

namespace ArmSession.Config

open Toml

def fields (c : Config) : List (String × String) :=
  [("realtime", "\"" ++ c.realtime.name ++ "\""),
    ("service_port", toString c.servicePort.toNat),
    ("realtime_port", toString c.realtimePort.toNat),
    ("connect_timeout_ms", toString c.connectTimeoutMs.toNat),
    ("handshake_timeout_ms", toString c.handshakeTimeoutMs.toNat),
    ("cycle_timeout_ms", toString c.cycleTimeoutMs.toNat)]

def toToml (c : Config) : String :=
  String.join (c.fields.map fun (key, value) => key ++ " = " ++ value ++ "\n")

def natural? (bound : Nat) : Value → Option Nat
  | .integer i => if 0 ≤ i ∧ i < bound then some i.toNat else none
  | _ => none

def port? (v : Value) : Option UInt16 := (natural? UInt16.size v).map UInt16.ofNat

def millis? (v : Value) : Option UInt64 := (natural? UInt64.size v).map UInt64.ofNat

/-- A policy is named by a text, or by the only key of a table, which then has no content. -/
def policy? : Value → Option Policy
  | .text name => Policy.ofName? name
  | .table _ [(name, .array _ [])] => Policy.ofName? name
  | .table _ [(name, .table _ [])] => Policy.ofName? name
  | _ => none

/-- The value of a key, or what stands for it when the key is left out. -/
def field? {α : Type} (es : Entries) (key : String) (read : Value → Option α) (otherwise : α) :
    Option α :=
  match es.lookUp? key with
  | none => some otherwise
  | some v => read v

def ofEntries? (es : Entries) : Option Config := do
  some {
    realtime := ← field? es "realtime" policy? standard.realtime
    servicePort := ← field? es "service_port" port? standard.servicePort
    realtimePort := ← field? es "realtime_port" port? standard.realtimePort
    connectTimeoutMs := ← field? es "connect_timeout_ms" millis? standard.connectTimeoutMs
    handshakeTimeoutMs := ← field? es "handshake_timeout_ms" millis? standard.handshakeTimeoutMs
    cycleTimeoutMs := ← field? es "cycle_timeout_ms" millis? standard.cycleTimeoutMs }

/-- Reads a text of which `read` tells the entries, if it is a document. -/
def ofDocument (read : String → Option Entries) (text : String) : Except ConfigError Config :=
  match (read text).bind ofEntries? with
  | none => .error .parse
  | some c =>
    match c.validate with
    | .error e => .error e
    | .ok () => .ok c

def ofToml (text : String) : Except ConfigError Config := ofDocument parse? text

def ofFile (content : Option Bytes) : Except ConfigError Config :=
  match content with
  | none => .error (.io "No such file or directory (os error 2)")
  | some bytes =>
    match String.fromUTF8? ⟨bytes.toArray⟩ with
    | none => .error (.io "stream did not contain valid UTF-8")
    | some text => ofToml text

/-- A configuration that was read is a valid one. -/
theorem validate_of_ofDocument {read : String → Option Entries} {text : String} {c : Config}
    (h : ofDocument read text = .ok c) : c.validate = .ok () := by
  unfold ofDocument at h
  split at h
  · cases h
  · split at h
    · cases h
    · next d _ hv => cases h; exact hv

end ArmSession.Config
