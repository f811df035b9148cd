import ArmSession.Duration
import ArmSession.Wire.Sizes

/-!
# Session configuration

Ports, timeouts and what to do when realtime scheduling is refused. A configuration is valid
when none of its three timeouts is zero.
-/

namespace ArmSession

/-- What to do when the thread cannot be scheduled in real time: give up the control call, or
go on at the default priority. -/
inductive Policy
  | enforce
  | ignore
deriving DecidableEq

namespace Policy

def name : Policy → String
  | enforce => "enforce"
  | ignore => "ignore"

def ofName? (name : String) : Option Policy :=
  if name = "enforce" then some enforce
  else if name = "ignore" then some ignore
  else none

@[simp] theorem ofName?_name (p : Policy) : ofName? p.name = some p := by
  cases p <;> simp [ofName?, name]

end Policy

inductive ConfigError
  | io (text : String)
  | parse
  | invalid (reason : String)
deriving DecidableEq

def ConfigError.message : ConfigError → String
  | io text => "Failed to read config file: " ++ text
  | parse => "Failed to parse config"
  | invalid reason => "Invalid config: " ++ reason

structure Config where
  realtime : Policy
  servicePort : UInt16
  realtimePort : UInt16
  connectTimeoutMs : UInt64
  handshakeTimeoutMs : UInt64
  cycleTimeoutMs : UInt64
deriving DecidableEq

structure ConnectOptions where
  /-- The port that is used when an address names none. -/
  servicePort : UInt16
  /-- The local port for datagrams; zero leaves the choice to the host. -/
  realtimePort : UInt16
  connectTimeout : Duration
deriving DecidableEq

namespace ConnectOptions

def standard : ConnectOptions := ⟨defaultServicePort, 0, .ofMillis 5000⟩

end ConnectOptions

namespace Config

def standard : Config where
  realtime := .enforce
  servicePort := defaultServicePort
  realtimePort := 0
  connectTimeoutMs := 5000
  handshakeTimeoutMs := 5000
  cycleTimeoutMs := 100

def withRealtime (c : Config) (policy : Policy) : Config := { c with realtime := policy }

/-- The timeouts with their names, in the order in which they are checked. -/
def timeouts (c : Config) : List (String × UInt64) :=
  [("connect_timeout_ms", c.connectTimeoutMs), ("handshake_timeout_ms", c.handshakeTimeoutMs),
    ("cycle_timeout_ms", c.cycleTimeoutMs)]

def validate (c : Config) : Except ConfigError Unit :=
  match c.timeouts.find? (fun (_, ms) => ms = 0) with
  | some (name, _) => .error (.invalid (name ++ " must be > 0"))
  | none => .ok ()

def connectTimeout (c : Config) : Duration := .ofMillis c.connectTimeoutMs

def handshakeTimeout (c : Config) : Duration := .ofMillis c.handshakeTimeoutMs

def cycleTimeout (c : Config) : Duration := .ofMillis c.cycleTimeoutMs

def connectOptions (c : Config) : ConnectOptions :=
  ⟨c.servicePort, c.realtimePort, c.connectTimeout⟩

theorem validate_eq_ok_iff (c : Config) : c.validate = .ok () ↔
    c.connectTimeoutMs ≠ 0 ∧ c.handshakeTimeoutMs ≠ 0 ∧ c.cycleTimeoutMs ≠ 0 := by
  by_cases h1 : c.connectTimeoutMs = 0 <;> by_cases h2 : c.handshakeTimeoutMs = 0 <;>
    by_cases h3 : c.cycleTimeoutMs = 0 <;> simp [validate, timeouts, h1, h2, h3]

end Config

end ArmSession
