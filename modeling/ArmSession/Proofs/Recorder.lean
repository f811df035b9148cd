import ArmSession.Proofs.Establishment

/-!
# Sessions that keep a record of their calls

A recorder opens traced links where the connector inside opens plain ones, and keeps those that are
given back. So all calls that an operation makes, on whatever links, are on record. A session over a
recorder goes the way of the session without one.
-/

namespace ArmSession

structure Recorder (κ σ : Type) where
  connector : κ
  /-- The links that were given back. -/
  returned : List (Traced σ)

variable {κ σ ρ α : Type}

def Recorder.of (connector : κ) : Recorder κ σ := ⟨connector, []⟩

instance [Connector κ σ] : Connector (Recorder κ σ) (Traced σ) where
  connect address k :=
    let (answer, connector) := Connector.connect address k.connector
    (answer.map Traced.start, { k with connector })
  release t k := ⟨Connector.release t.link k.connector, k.returned ++ [t]⟩

theorem Recorder.connect_eq [Connector κ σ] {k : Recorder κ σ} {address : String}
    {answer : Except LinkError σ} {connector : κ}
    (h : Connector.connect address k.connector = (answer, connector)) :
    (Connector.connect address k : Except LinkError (Traced σ) × Recorder κ σ) =
      (answer.map Traced.start, { k with connector }) := by
  have hconnect : (Connector.connect address k : Except LinkError (Traced σ) × Recorder κ σ) =
      ((Connector.connect address k.connector).1.map Traced.start,
        { k with connector := (Connector.connect address k.connector).2 }) := rfl
  rw [hconnect, h]

def Negotiation.plain (n : Negotiation (Traced σ)) : Negotiation σ := { n with link := n.link.link }

def Opening.plain (o : Opening (Recorder κ σ) (Traced σ)) : Opening κ σ :=
  ⟨o.result.map fun (t, version) => (t.link, version), o.connector.connector, o.log⟩

def Session.recorded (s : Session κ σ) : Session (Recorder κ σ) (Traced σ) :=
  ⟨.of s.connector, s.address, s.config, .start s.link, s.serverVersion, s.scheduler⟩

def Session.plain (s : Session (Recorder κ σ) (Traced σ)) : Session κ σ :=
  ⟨s.connector.connector, s.address, s.config, s.link.link, s.serverVersion, s.scheduler⟩

def Outcome.plain (o : Outcome (Recorder κ σ) (Traced σ) ρ α) : Outcome κ σ ρ α :=
  { o with session := o.session.plain }

def Connecting.plain (o : Connecting (Recorder κ σ) (Traced σ)) : Connecting κ σ :=
  ⟨o.result.map Session.plain, o.connector.connector, o.log⟩

section

variable [Link σ]

/-- Recording changes nothing else of a handshake. -/
theorem negotiate_plain (timeout : Duration) (t : Traced σ) :
    (negotiate timeout t).plain = negotiate timeout t.link := by
  unfold negotiate
  dsimp only
  rw [show Link.realtimePort t = Link.realtimePort t.link from rfl]
  cases hsend : Link.send .service (ConnectRequest.on t.link).encode t with
  | mk sent between =>
  obtain ⟨hsend', -⟩ := Traced.send_eq hsend
  unfold ConnectRequest.on at hsend hsend'
  rw [hsend, hsend']
  cases sent with
  | error e => rfl
  | ok _ =>
      dsimp only
      cases hreceive : Link.receive .service timeout between with
      | mk answer t' =>
      rw [(Traced.receive_eq hreceive).1]
      cases answer with
      | error e => rfl
      | ok reply =>
          dsimp only
          cases ConnectResponse.decode reply with
          | error e => rfl
          | ok response =>
              dsimp only
              cases response.agrees <;> rfl

namespace Session

variable (s : Session (Recorder κ σ) (Traced σ))

theorem runLoop_plain (c : ControlLoop ρ) (user : ρ) (log : List Log.Line) :
    (s.runLoop c user log).plain = s.plain.runLoop c user log := by
  have hran : _ = c.run s.plain.link user := c.run_traced s.link user
  unfold runLoop
  rw [← hran]
  rfl

theorem control_plain (mode : Mode) (motion torque : Option (Callback ρ)) (user : ρ) :
    (s.control mode motion torque user).plain = s.plain.control mode motion torque user := by
  have hconfig : s.plain.config = s.config := rfl
  have hscheduler : s.plain.scheduler = s.scheduler := rfl
  unfold control
  rw [hconfig, hscheduler]
  cases ControlLoop.new mode motion torque s.config.cycleTimeout with
  | error e => rfl
  | ok c =>
      cases mode.torque with
      | false => exact s.runLoop_plain c user []
      | true =>
          dsimp only
          rw [if_pos rfl, if_pos rfl]
          cases (s.scheduler.acquire s.config.realtime).result with
          | error e => rfl
          | ok _ => exact runLoop_plain { s with scheduler := _ } c user _

theorem read_plain (goesOn : Predicate ρ) (user : ρ) :
    (s.read goesOn user).plain = s.plain.read goesOn user := by
  obtain ⟨hran, -⟩ := Reading.run_traced goesOn (.new s.config.cycleTimeout) s.link user 0
  have hread : _ = readLoop s.plain.config.cycleTimeout goesOn s.plain.link user := hran
  unfold read
  rw [← hread]
  rfl

theorem call_plain (user : ρ) (call : LinkUse ρ) :
    (s.call user call).plain = s.plain.call user call := by
  cases call with
  | control mode motion torque =>
      rw [Session.call, Session.call, ← control_plain]
      rfl
  | read goesOn =>
      rw [Session.call, Session.call, ← read_plain]
      rfl
  | readOnce =>
      rw [Session.call, Session.call, readOnce, readOnce, ← read_plain]
      rfl

end Session

variable [Connector κ σ]

theorem Opening.of_plain (k : Recorder κ σ) (address : String) (config : Config) :
    (Opening.of k address config).plain = Opening.of k.connector address config := by
  cases hconnect : (Connector.connect address k.connector : Except LinkError σ × κ) with
  | mk answer connector =>
  unfold Opening.of
  dsimp only
  rw [hconnect, Recorder.connect_eq hconnect]
  cases answer with
  | error e => rfl
  | ok link =>
      have hplain : _ = negotiate config.handshakeTimeout link :=
        negotiate_plain config.handshakeTimeout (Traced.start link)
      dsimp only [Except.map]
      rw [← hplain]
      unfold Negotiation.plain
      dsimp only
      cases (negotiate config.handshakeTimeout (Traced.start link)).result with
      | error e => rfl
      | ok version => rfl

namespace Session

theorem connect_plain (k : Recorder κ σ) (address : String) (config : Config)
    (scheduler : Scheduler) : (connect k address config scheduler).plain =
      connect k.connector address config scheduler := by
  unfold connect
  cases config.validate with
  | error e => rfl
  | ok _ =>
      dsimp only
      rw [← Opening.of_plain]
      unfold Opening.plain
      dsimp only
      cases (Opening.of k address config).result with
      | error e => rfl
      | ok opened => rfl

variable (s : Session (Recorder κ σ) (Traced σ))

theorem reconnect_plain : s.reconnect.plain = s.plain.reconnect := by
  have hplain : _ = Opening.of s.plain.connector s.plain.address s.plain.config :=
    Opening.of_plain s.connector s.address s.config
  unfold reconnect
  rw [← hplain]
  unfold Opening.plain
  dsimp only
  cases (Opening.of s.connector s.address s.config).result with
  | error e => rfl
  | ok opened => rfl

/-- Recording changes nothing else of what an operation comes to. -/
theorem perform_plain (user : ρ) (operation : Operation ρ) :
    (s.perform user operation).plain = s.plain.perform user operation := by
  cases operation with
  | call call => exact s.call_plain user call
  | reconnect =>
      rw [perform, perform, ← reconnect_plain]
      rfl
  | reschedule scheduler => rfl

end Session

end

end ArmSession
