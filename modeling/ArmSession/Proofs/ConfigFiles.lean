import ArmSession.ConfigFile
import ArmSession.Proofs.Establishment
import ArmSession.Proofs.PlainLines

/-!
# Configurations in files

A document may give any of the six keys a value, in any order. What is read from it is the standard
configuration with these settings made, which is refused if it has a zero timeout. A configuration
that is written gives all six keys, so that it is read as itself, and one that was read is never
refused when it is used to connect. All of this holds for any reader and writer that follow the
format, such as those of this library.
-/

namespace ArmSession.Config

open Toml

inductive Setting
  | realtime (policy : Policy)
  | servicePort (port : UInt16)
  | realtimePort (port : UInt16)
  | connectTimeoutMs (ms : UInt64)
  | handshakeTimeoutMs (ms : UInt64)
  | cycleTimeoutMs (ms : UInt64)

def keys : List String :=
  ["realtime", "service_port", "realtime_port", "connect_timeout_ms", "handshake_timeout_ms",
    "cycle_timeout_ms"]

namespace Setting

def key : Setting → String
  | realtime _ => "realtime"
  | servicePort _ => "service_port"
  | realtimePort _ => "realtime_port"
  | connectTimeoutMs _ => "connect_timeout_ms"
  | handshakeTimeoutMs _ => "handshake_timeout_ms"
  | cycleTimeoutMs _ => "cycle_timeout_ms"

def text : Setting → String
  | realtime policy => "\"" ++ policy.name ++ "\""
  | servicePort port | realtimePort port => toString port.toNat
  | connectTimeoutMs ms | handshakeTimeoutMs ms | cycleTimeoutMs ms => toString ms.toNat

def value : Setting → Value
  | realtime policy => .text policy.name
  | servicePort port | realtimePort port => .integer port.toNat
  | connectTimeoutMs ms | handshakeTimeoutMs ms | cycleTimeoutMs ms => .integer ms.toNat

def entry (s : Setting) : String × Value := (s.key, s.value)

def line (s : Setting) : String := s.key ++ " = " ++ s.text ++ "\n"

def apply : Setting → Config → Config
  | realtime policy, c => { c with realtime := policy }
  | servicePort port, c => { c with servicePort := port }
  | realtimePort port, c => { c with realtimePort := port }
  | connectTimeoutMs ms, c => { c with connectTimeoutMs := ms }
  | handshakeTimeoutMs ms, c => { c with handshakeTimeoutMs := ms }
  | cycleTimeoutMs ms, c => { c with cycleTimeoutMs := ms }

end Setting

def document (settings : List Setting) : String := String.join (settings.map Setting.line)

def configured (settings : List Setting) : Config :=
  settings.foldl (fun c s => s.apply c) standard

def settings (c : Config) : List Setting :=
  [.realtime c.realtime, .servicePort c.servicePort, .realtimePort c.realtimePort,
    .connectTimeoutMs c.connectTimeoutMs, .handshakeTimeoutMs c.handshakeTimeoutMs,
    .cycleTimeoutMs c.cycleTimeoutMs]

theorem configured_settings (c : Config) : configured c.settings = c := rfl

/-- The configuration, unless it has a zero timeout, the first of which is named. -/
def checked (c : Config) : Except ConfigError Config :=
  if c.connectTimeoutMs = 0 then .error (.invalid "connect_timeout_ms must be > 0")
  else if c.handshakeTimeoutMs = 0 then .error (.invalid "handshake_timeout_ms must be > 0")
  else if c.cycleTimeoutMs = 0 then .error (.invalid "cycle_timeout_ms must be > 0")
  else .ok c

theorem map_validate (c : Config) : c.validate.map (fun _ => c) = c.checked := by
  unfold validate timeouts checked
  by_cases hconnect : c.connectTimeoutMs = 0
  · simp [hconnect, Except.map]
  · by_cases hhandshake : c.handshakeTimeoutMs = 0
    · simp [hconnect, hhandshake, Except.map]
    · by_cases hcycle : c.cycleTimeoutMs = 0 <;>
        simp [hconnect, hhandshake, hcycle, Except.map]

theorem ofDocument_of_read {read : String → Option Entries} {text : String} {es : Entries}
    {c : Config} (hread : read text = some es) (hentries : ofEntries? es = some c) :
    ofDocument read text = c.checked := by
  rw [← map_validate, ofDocument, hread, Option.bind_some, hentries]
  dsimp only
  cases c.validate with
  | error e => rfl
  | ok u => rfl

section

variable {es es' : Entries} {c : Config}

theorem ofEntries?_eq_some_iff : ofEntries? es = some c ↔
    field? es "realtime" policy? standard.realtime = some c.realtime ∧
      field? es "service_port" port? standard.servicePort = some c.servicePort ∧
      field? es "realtime_port" port? standard.realtimePort = some c.realtimePort ∧
      field? es "connect_timeout_ms" millis? standard.connectTimeoutMs =
        some c.connectTimeoutMs ∧
      field? es "handshake_timeout_ms" millis? standard.handshakeTimeoutMs =
        some c.handshakeTimeoutMs ∧
      field? es "cycle_timeout_ms" millis? standard.cycleTimeoutMs = some c.cycleTimeoutMs := by
  obtain ⟨realtime, servicePort, realtimePort, connect, handshake, cycle⟩ := c
  simp [ofEntries?, Option.bind_eq_some_iff]

theorem ofEntries?_congr (h : ∀ key ∈ keys, es.lookUp? key = es'.lookUp? key) :
    ofEntries? es = ofEntries? es' := by
  have hfield {α : Type} {key : String} (read : Value → Option α) (otherwise : α)
      (hkey : key ∈ keys) : field? es key read otherwise = field? es' key read otherwise := by
    rw [field?, field?, h key hkey]
  unfold ofEntries?
  rw [hfield policy? _ (by decide), hfield port? _ (by decide), hfield port? _ (by decide),
    hfield millis? _ (by decide), hfield millis? _ (by decide), hfield millis? _ (by decide)]

theorem field?_put {α : Type} (es : Entries) (key other : String) (v : Value)
    (read : Value → Option α) (otherwise : α) :
    field? (es.put key v) other read otherwise =
      if key = other then read v else field? es other read otherwise := by
  unfold field?
  rw [Entries.lookUp?_put]
  by_cases h : key = other <;> simp [h]

theorem natural?_toNat {bound n : Nat} (h : n < bound) : natural? bound (.integer n) = some n :=
  if_pos ⟨Int.natCast_nonneg n, Int.ofNat_lt.2 h⟩

theorem port?_toNat (port : UInt16) : port? (.integer port.toNat) = some port := by
  rw [port?, natural?_toNat port.toNat_lt_size, Option.map_some, UInt16.ofNat_toNat]

theorem millis?_toNat (ms : UInt64) : millis? (.integer ms.toNat) = some ms := by
  rw [millis?, natural?_toNat ms.toNat_lt_size, Option.map_some, UInt64.ofNat_toNat]

theorem policy?_name (policy : Policy) : policy? (.text policy.name) = some policy :=
  Policy.ofName?_name policy

theorem ofEntries?_put (s : Setting) (h : ofEntries? es = some c) :
    ofEntries? (es.put s.key s.value) = some (s.apply c) := by
  rw [ofEntries?_eq_some_iff] at h ⊢
  cases s <;>
    simp [field?_put, Setting.key, Setting.value, Setting.apply, h, policy?_name, port?_toNat,
      millis?_toNat]

theorem ofEntries?_append (settings : List Setting) (h : ofEntries? es = some c)
    (hkeys : (es.map Prod.fst ++ settings.map Setting.key).Nodup) :
    ofEntries? (es ++ settings.map Setting.entry) =
      some (settings.foldl (fun c s => s.apply c) c) := by
  induction settings generalizing es c with
  | nil => simpa using h
  | cons s settings ih =>
      have hnew : s.key ∉ es.map Prod.fst := fun hkey =>
        (List.nodup_append.1 hkeys).2.2 s.key hkey s.key (by simp) rfl
      have hput : es.put s.key s.value = es ++ [s.entry] :=
        Entries.put_of_lookUp?_eq_none _ ((es.lookUp?_eq_none_iff _).2 hnew)
      have hstep : ofEntries? (es ++ [s.entry]) = some (s.apply c) := by
        rw [← hput]
        exact ofEntries?_put s h
      have hrest := ih hstep (by simpa [Setting.entry] using hkeys)
      simpa using hrest

theorem ofEntries?_settings {settings : List Setting} (h : (settings.map Setting.key).Nodup) :
    ofEntries? (settings.map Setting.entry) = some (configured settings) := by
  have hstandard : ofEntries? [] = some standard := rfl
  exact ofEntries?_append settings hstandard (by simpa using h)

end

namespace Setting

theorem key_mem_keys (s : Setting) : s.key ∈ keys := by
  cases s <;> simp [key, keys]

theorem spells (s : Setting) : Spells s.text.toList s.value := by
  have hnumber {n : Nat} (h : n < Nat.pow 2 128) : Spells (toString n).toList (.integer n) := by
    have htext : (toString n).toList = Nat.toDigits 10 n := Nat.toList_repr
    rw [htext]
    exact spells_toDigits h
  have hport (port : UInt16) : port.toNat < Nat.pow 2 128 :=
    Nat.lt_trans port.toNat_lt_size (by decide)
  have hmillis (ms : UInt64) : ms.toNat < Nat.pow 2 128 :=
    Nat.lt_trans ms.toNat_lt_size (by decide)
  cases s with
  | realtime policy =>
      have htext : (Setting.realtime policy).text.toList = '"' :: policy.name.toList ++ ['"'] := by
        simp [text]
      rw [htext]
      have hplain : ∀ c ∈ policy.name.toList, isPlainChar c = true := by
        cases policy <;> simp [Policy.name, isPlainChar, isTextChar]
      exact spells_quoted (by cases policy <;> decide) hplain
  | servicePort port => exact hnumber (hport port)
  | realtimePort port => exact hnumber (hport port)
  | connectTimeoutMs ms => exact hnumber (hmillis ms)
  | handshakeTimeoutMs ms => exact hnumber (hmillis ms)
  | cycleTimeoutMs ms => exact hnumber (hmillis ms)

theorem bare_of_mem_keys : ∀ key ∈ keys,
    key.toList ≠ [] ∧ ∀ c ∈ key.toList, isBareKeyChar c = true := by
  simp [keys, isBareKeyChar]

def plainLine (s : Setting) : PlainLine where
  key := s.key
  text := s.text.toList
  value := s.value
  key_ne_nil := (bare_of_mem_keys s.key s.key_mem_keys).1
  key_bare := (bare_of_mem_keys s.key s.key_mem_keys).2
  spells := s.spells

theorem toList_line (s : Setting) : s.line.toList = s.plainLine.chars := by
  simp [line, PlainLine.chars, plainLine]

end Setting

/-- The reader finds the settings of a document and nothing else in it, unless a key comes twice,
and the writer writes such a document. -/
structure FollowsFormat (read : String → Option Entries) (write : Config → String) : Prop where
  reads : ∀ settings, read (document settings) =
    if (settings.map Setting.key).Nodup then some (settings.map Setting.entry) else none
  writes : ∀ c : Config, write c = document c.settings

theorem followsFormat_toml : FollowsFormat parse? toToml where
  reads settings := by
    have hchars : (document settings).toList =
        (settings.map Setting.plainLine).flatMap PlainLine.chars := by
      simp [document, List.flatMap_map, Setting.toList_line]
    rw [parse?_lines _ hchars]
    simp only [List.map_map]
    rfl
  writes _ := rfl

/-- Whoever connects with this configuration gets as far as opening a link. -/
def Connects (c : Config) : Prop :=
  ∀ {κ σ : Type} [Link σ] [Connector κ σ] (connector : κ) (address : String)
    (scheduler : Scheduler),
    let opening := Opening.of connector address c
    (Session.connect connector address c scheduler).result = opening.result.map fun opened =>
      ⟨opening.connector, address, c, opened.1, opened.2, scheduler⟩

structure ReadsSettings (read : String → Option Entries) (write : Config → String) : Prop where
  /-- A configuration that is written is read as itself, if it is accepted. -/
  written : ∀ c : Config, ofDocument read (write c) = c.checked
  /-- Settings that are written in any order are made, and a key that comes twice is an error. -/
  document : ∀ settings, ofDocument read (document settings) =
    if (settings.map Setting.key).Nodup then (configured settings).checked else .error .parse
  /-- So are settings in any other spelling, among keys of other names. -/
  spelling : ∀ settings text es, (settings.map Setting.key).Nodup → read text = some es →
    (∀ key ∈ keys, es.lookUp? key = Entries.lookUp? (settings.map Setting.entry) key) →
    ofDocument read text = (configured settings).checked
  /-- What is read can be used to connect. -/
  connects : ∀ text c, ofDocument read text = .ok c → c.Connects

section

variable {read : String → Option Entries} {write : Config → String}

theorem ofDocument_document (h : FollowsFormat read write) (settings : List Setting) :
    ofDocument read (document settings) =
      if (settings.map Setting.key).Nodup then (configured settings).checked
      else .error .parse := by
  have hread := h.reads settings
  by_cases hkeys : (settings.map Setting.key).Nodup
  · rw [if_pos hkeys] at hread ⊢
    exact ofDocument_of_read hread (ofEntries?_settings hkeys)
  · rw [if_neg hkeys] at hread ⊢
    rw [ofDocument, hread]
    rfl

theorem nodup_settings (c : Config) : (c.settings.map Setting.key).Nodup := by
  have hkeys : c.settings.map Setting.key = keys := rfl
  rw [hkeys]
  decide

theorem FollowsFormat.readsSettings (h : FollowsFormat read write) : ReadsSettings read write where
  written c := by
    rw [h.writes, ofDocument_document h, if_pos c.nodup_settings, configured_settings]
  document := ofDocument_document h
  spelling settings text es hnodup hread hkeys := by
    have hentries : ofEntries? es = some (configured settings) :=
      (ofEntries?_congr hkeys).trans (ofEntries?_settings hnodup)
    exact ofDocument_of_read hread hentries
  connects text c hc := by
    intro κ σ _ _ connector address scheduler
    have hvalid : c.HasTimeouts := c.validate_eq_ok_iff.1 (validate_of_ofDocument hc)
    exact Session.connect_of_valid hvalid connector address scheduler

end

/-- With any reader and writer that follow the format, what is written is read as itself, and
settings are made in whatever order they come. So it is with `ofToml` and `toToml`. -/
theorem reads_settings :
    (∀ read write, FollowsFormat read write → ReadsSettings read write) ∧
      ReadsSettings parse? toToml :=
  ⟨fun _ _ h => h.readsSettings, followsFormat_toml.readsSettings⟩

end ArmSession.Config
