import ArmSession.ControlLoop
import ArmSession.Negotiation
import ArmSession.Reading
import ArmSession.Realtime

/-!
# Sessions

A session owns a link on which the versions were agreed, and the connector that opened it.
Reading and control use the link one call at a time, and each call goes on where the one
before it stopped. Reconnecting opens a new link first; the old one is kept if that fails and
given back if it succeeds.
-/

namespace ArmSession

structure Session (κ σ : Type) where
  connector : κ
  address : String
  config : Config
  link : σ
  serverVersion : UInt16
  scheduler : Scheduler

structure Outcome (κ σ ρ α : Type) where
  result : Except Failure α
  session : Session κ σ
  user : ρ
  seen : List RobotState
  events : List Event
  log : List Log.Line

structure Opening (κ σ : Type) where
  result : Except Failure (σ × UInt16)
  connector : κ
  log : List Log.Line

structure Connecting (κ σ : Type) where
  result : Except Failure (Session κ σ)
  connector : κ
  log : List Log.Line

variable {κ σ ρ : Type} [Link σ]

/-- Opens a link and agrees on the version. A link without agreement goes back. -/
def Opening.of [Connector κ σ] (connector : κ) (address : String) (config : Config) :
    Opening κ σ :=
  let connecting : Log.Line := ⟨.info, "Connecting to controller at " ++ address⟩
  match Connector.connect address connector with
  | (.error e, connector) => ⟨.error (.link e), connector, [connecting]⟩
  | (.ok link, connector) =>
    let agreement := negotiate config.handshakeTimeout link
    match agreement.result with
    | .error e =>
      ⟨.error e, Connector.release agreement.link connector, connecting :: agreement.log⟩
    | .ok version =>
      ⟨.ok (agreement.link, version), connector,
        connecting :: agreement.log ++
          [⟨.info, s!"Connected to {address} (server version {version})"⟩]⟩

namespace Session

/-- A new session. The connector is asked only if the configuration is valid. -/
def connect [Connector κ σ] (connector : κ) (address : String) (config : Config)
    (scheduler : Scheduler) : Connecting κ σ :=
  match config.validate with
  | .error e => ⟨.error (.config e), connector, []⟩
  | .ok () =>
    let opening := Opening.of connector address config
    match opening.result with
    | .error e => ⟨.error e, opening.connector, opening.log⟩
    | .ok (link, version) =>
      ⟨.ok ⟨opening.connector, address, config, link, version, scheduler⟩, opening.connector,
        opening.log⟩

def reconnect [Connector κ σ] (s : Session κ σ) : Outcome κ σ Unit Unit :=
  let attempting : Log.Line := ⟨.info, "Attempting to reconnect to " ++ s.address⟩
  let opening := Opening.of s.connector s.address s.config
  match opening.result with
  | .error e =>
    ⟨.error e, { s with connector := opening.connector }, (), [], [], attempting :: opening.log⟩
  | .ok (link, version) =>
    let renewed := { s with
      connector := Connector.release s.link opening.connector
      link
      serverVersion := version }
    ⟨.ok (), renewed, (), [], [],
      attempting :: opening.log ++ [⟨.info, "Reconnection successful"⟩]⟩

def read (s : Session κ σ) (goesOn : Predicate ρ) (user : ρ) : Outcome κ σ ρ Unit :=
  let reading := readLoop s.config.cycleTimeout goesOn s.link user
  ⟨reading.result, { s with link := reading.link }, reading.user, reading.seen, [], reading.log⟩

/-- Reads one state, through a predicate that keeps the first one. -/
def readOnce (s : Session κ σ) : Outcome κ σ Unit RobotState :=
  let once := s.read (fun state _ => (false, some state)) none
  let result := match once.result, once.user with
    | .error e, _ => .error e
    | .ok (), some state => .ok state
    | .ok (), none => .error .noState
  ⟨result, once.session, (), [], [], once.log⟩

def runLoop (s : Session κ σ) (loop : ControlLoop ρ) (user : ρ) (before : List Log.Line) :
    Outcome κ σ ρ Unit :=
  let ran := loop.run s.link user
  ⟨ran.result, { s with link := ran.link }, ran.user, [], ran.events, before ++ ran.log⟩

/-- Runs a control loop. The callbacks are checked first, and realtime scheduling is asked
for when torques are used, before the link is touched. -/
def control (s : Session κ σ) (mode : Mode) (motion torque : Option (Callback ρ)) (user : ρ) :
    Outcome κ σ ρ Unit :=
  match ControlLoop.new mode motion torque s.config.cycleTimeout with
  | .error e => ⟨.error e, s, user, [], [], []⟩
  | .ok loop =>
    if mode.torque then
      let acquired := s.scheduler.acquire s.config.realtime
      let s := { s with scheduler := acquired.scheduler }
      match acquired.result with
      | .error e => ⟨.error e, s, user, [], [], acquired.log⟩
      | .ok () => s.runLoop loop user acquired.log
    else s.runLoop loop user []

def close [Connector κ σ] (s : Session κ σ) : κ × List Log.Line :=
  (Connector.release s.link s.connector, [⟨.debug, "Closing session to " ++ s.address⟩])

end Session

end ArmSession
