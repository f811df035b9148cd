import ArmSession.Proofs.SessionOrder
import ArmSession.Proofs.Traffic

/-!
# Operations on a session

A call uses the link on the realtime channel, may ask the scheduler, and leaves everything else of
the session as it is. Only a reconnect deals with the connector. So what calls come to does not
depend on the connector, and what a reconnect comes to depends on its answers alone.
-/

namespace ArmSession

variable {κ σ ρ α β : Type}

inductive Operation (ρ : Type)
  | call (call : LinkUse ρ)
  | reconnect
  | reschedule (scheduler : Scheduler)

def Operation.reconnects : Operation ρ → Bool
  | call _ => false
  | reconnect => true
  | reschedule _ => false

def Outcome.map (f : α → β) (o : Outcome κ σ ρ α) : Outcome κ σ ρ β :=
  { o with result := o.result.map f }

def Opening.mapConnector (f : κ → κ) (o : Opening κ σ) : Opening κ σ :=
  { o with connector := f o.connector }

def Session.mapConnector (f : κ → κ) (s : Session κ σ) : Session κ σ :=
  { s with connector := f s.connector }

def Outcome.mapConnector (f : κ → κ) (o : Outcome κ σ ρ α) : Outcome κ σ ρ α :=
  { o with session := o.session.mapConnector f }

namespace Session

variable [Link σ]

def call (s : Session κ σ) (user : ρ) : LinkUse ρ → Outcome κ σ ρ (Option RobotState)
  | .control mode motion torque => (s.control mode motion torque user).map fun _ => none
  | .read goesOn => (s.read goesOn user).map fun _ => none
  | .readOnce => { s.readOnce.map some with user }

variable [Connector κ σ]

def perform (s : Session κ σ) (user : ρ) : Operation ρ → Outcome κ σ ρ (Option RobotState)
  | .call call => s.call user call
  | .reconnect => { s.reconnect.map (fun _ => none) with user }
  | .reschedule scheduler => ⟨.ok none, { s with scheduler }, user, [], [], []⟩

def performs (s : Session κ σ) (user : ρ) :
    List (Operation ρ) → List (Outcome κ σ ρ (Option RobotState))
  | [] => []
  | operation :: operations =>
    let outcome := s.perform user operation
    outcome :: performs outcome.session outcome.user operations

/-- Operations lead from one session to another, whatever states their callbacks keep. -/
inductive Reaches : Session κ σ → Session κ σ → Prop
  | none (s : Session κ σ) : Reaches s s
  | more {ρ : Type} {s s' : Session κ σ} (user : ρ) (operation : Operation ρ)
      (rest : Reaches (s.perform user operation).session s') : Reaches s s'

end Session

namespace Session

variable [Link σ]

/-- The session is left with a link that was used on the realtime channel, perhaps with another
scheduler, and otherwise as it was. -/
def Uses (s s' : Session κ σ) : Prop :=
  ∃ link scheduler, s' = { s with link, scheduler } ∧ RealtimeTraffic s.link link

/-- Control comes to the scheduler at most, or else to a run of its loop. -/
theorem session_control (s : Session κ σ) (mode : Mode) (motion torque : Option (Callback ρ))
    (user : ρ) : ∃ link scheduler,
      (s.control mode motion torque user).session = { s with link, scheduler } ∧
        (link = s.link ∨ ∃ c, ControlLoop.new mode motion torque s.config.cycleTimeout = .ok c ∧
          link = (c.run s.link user).link) := by
  unfold control
  cases ControlLoop.new mode motion torque s.config.cycleTimeout with
  | error e => exact ⟨_, _, rfl, .inl rfl⟩
  | ok c =>
      dsimp only
      split
      · split
        · exact ⟨_, _, rfl, .inl rfl⟩
        · exact ⟨_, _, rfl, .inr ⟨c, rfl, rfl⟩⟩
      · exact ⟨_, _, rfl, .inr ⟨c, rfl, rfl⟩⟩

theorem uses_control (s : Session κ σ) (mode : Mode) (motion torque : Option (Callback ρ))
    (user : ρ) : s.Uses (s.control mode motion torque user).session := by
  obtain ⟨link, scheduler, hsession, hlink⟩ := s.session_control mode motion torque user
  refine ⟨link, scheduler, hsession, ?_⟩
  rcases hlink with rfl | ⟨c, -, rfl⟩
  · exact .refl s.link
  · exact c.traffic_run s.link user

theorem uses_read (s : Session κ σ) (goesOn : Predicate ρ) (user : ρ) :
    s.Uses (s.read goesOn user).session :=
  ⟨_, s.scheduler, rfl, Reading.traffic_run goesOn _ s.link user 0⟩

theorem uses_call (s : Session κ σ) (user : ρ) (call : LinkUse ρ) :
    s.Uses (s.call user call).session := by
  cases call with
  | control mode motion torque => exact s.uses_control mode motion torque user
  | read goesOn => exact s.uses_read goesOn user
  | readOnce => exact s.uses_read (fun state _ => (false, some state)) (none : Option RobotState)

variable [Connector κ σ]

/-- What holds at first and is kept by uses of the link and by reconnects holds of every session
that is reached. -/
theorem Reaches.invariant {s s' : Session κ σ} (h : s.Reaches s') {P : Session κ σ → Prop}
    (start : P s) (uses : ∀ s s' : Session κ σ, s.Uses s' → P s → P s')
    (reconnect : ∀ s : Session κ σ, P s → P s.reconnect.session) : P s' := by
  induction h with
  | none => exact start
  | @more ρ s s' user operation rest ih =>
      apply ih
      cases operation with
      | call call => exact uses _ _ (s.uses_call user call) start
      | reconnect => exact reconnect s start
      | reschedule scheduler => exact uses _ _ ⟨s.link, scheduler, rfl, .refl s.link⟩ start

variable {s : Session κ σ}

theorem reconnect_of_error {e : Failure}
    (h : (Opening.of s.connector s.address s.config).result = .error e) :
    s.reconnect.result = .error e ∧ s.reconnect.session =
      { s with connector := (Opening.of s.connector s.address s.config).connector } := by
  unfold reconnect
  dsimp only
  rw [h]
  exact ⟨rfl, rfl⟩

theorem reconnect_of_ok {link : σ} {version : UInt16}
    (h : (Opening.of s.connector s.address s.config).result = .ok (link, version)) :
    s.reconnect.result = .ok () ∧ s.reconnect.session = { s with
      connector :=
        Connector.release s.link (Opening.of s.connector s.address s.config).connector
      link
      serverVersion := version } := by
  unfold reconnect
  dsimp only
  rw [h]
  exact ⟨rfl, rfl⟩

theorem config_reconnect (s : Session κ σ) : s.reconnect.session.config = s.config := by
  unfold reconnect
  dsimp only
  split <;> rfl

theorem Reaches.config_eq {s s' : Session κ σ} (h : s.Reaches s') : s'.config = s.config := by
  refine h.invariant rfl (P := fun t => t.config = s.config) ?_ fun t ht => ?_
  · rintro t t' ⟨link, scheduler, rfl, -⟩ ht
    exact ht
  · exact t.config_reconnect.trans ht

end Session

section

variable [Link σ] {f : κ → κ}

theorem Session.control_mapConnector (f : κ → κ) (s : Session κ σ) (mode : Mode)
    (motion torque : Option (Callback ρ)) (user : ρ) :
    (s.mapConnector f).control mode motion torque user =
      (s.control mode motion torque user).mapConnector f := by
  have hconfig : (s.mapConnector f).config = s.config := rfl
  have hscheduler : (s.mapConnector f).scheduler = s.scheduler := rfl
  unfold control
  rw [hconfig, hscheduler]
  cases ControlLoop.new mode motion torque s.config.cycleTimeout with
  | error e => rfl
  | ok c =>
      cases mode.torque with
      | false => rfl
      | true =>
          dsimp only
          rw [if_pos rfl, if_pos rfl]
          cases (s.scheduler.acquire s.config.realtime).result with
          | error e => rfl
          | ok _ => rfl

theorem Session.call_mapConnector (f : κ → κ) (s : Session κ σ) (user : ρ) (call : LinkUse ρ) :
    (s.mapConnector f).call user call = (s.call user call).mapConnector f := by
  cases call with
  | control mode motion torque =>
      rw [Session.call, control_mapConnector]
      rfl
  | read goesOn => rfl
  | readOnce => rfl

variable [Connector κ σ]

structure Connector.Respects (σ : Type) [Connector κ σ] (f : κ → κ) : Prop where
  connect : ∀ address k, Connector.connect address (f k) =
    ((Connector.connect address k : Except LinkError σ × κ).1, f (Connector.connect address k).2)
  release : ∀ (link : σ) k, Connector.release link (f k) = f (Connector.release link k)

theorem Opening.of_mapConnector (hf : Connector.Respects σ f) (k : κ) (address : String)
    (config : Config) :
    Opening.of (f k) address config = (Opening.of k address config).mapConnector f := by
  unfold Opening.of
  rw [hf.connect]
  cases Connector.connect address k with
  | mk answer k' =>
      cases answer with
      | error e => rfl
      | ok link =>
          dsimp only
          cases (negotiate config.handshakeTimeout link).result with
          | error e =>
              dsimp only
              rw [hf.release]
              rfl
          | ok version => rfl

theorem Session.reconnect_mapConnector (hf : Connector.Respects σ f) (s : Session κ σ) :
    (s.mapConnector f).reconnect = s.reconnect.mapConnector f := by
  have hopening : Opening.of (s.mapConnector f).connector (s.mapConnector f).address
      (s.mapConnector f).config = (Opening.of s.connector s.address s.config).mapConnector f :=
    Opening.of_mapConnector hf s.connector s.address s.config
  unfold reconnect
  rw [hopening]
  unfold Opening.mapConnector
  dsimp only
  cases (Opening.of s.connector s.address s.config).result with
  | error e => rfl
  | ok opened =>
      have hrelease : Connector.release (s.mapConnector f).link
          (f (Opening.of s.connector s.address s.config).connector) =
        f (Connector.release s.link (Opening.of s.connector s.address s.config).connector) :=
        hf.release s.link _
      dsimp only
      rw [hrelease]
      rfl

/-- Without a reconnect the connector does not matter at all. -/
theorem Session.perform_mapConnector_of_uses (f : κ → κ) (s : Session κ σ) (user : ρ)
    {operation : Operation ρ} (h : operation.reconnects = false) :
    (s.mapConnector f).perform user operation = (s.perform user operation).mapConnector f := by
  cases operation with
  | call call => exact s.call_mapConnector f user call
  | reconnect => cases h
  | reschedule scheduler => rfl

theorem Session.perform_mapConnector (hf : Connector.Respects σ f) (s : Session κ σ)
    (user : ρ) (operation : Operation ρ) :
    (s.mapConnector f).perform user operation = (s.perform user operation).mapConnector f := by
  cases operation with
  | call call => exact s.call_mapConnector f user call
  | reconnect =>
      rw [perform, reconnect_mapConnector hf]
      rfl
  | reschedule scheduler => rfl

theorem Session.performs_mapConnector {operations : List (Operation ρ)}
    (h : ∀ operation ∈ operations, ∀ (s : Session κ σ) (user : ρ),
      (s.mapConnector f).perform user operation = (s.perform user operation).mapConnector f)
    (s : Session κ σ) (user : ρ) : (s.mapConnector f).performs user operations =
      (s.performs user operations).map (Outcome.mapConnector f) := by
  induction operations generalizing s user with
  | nil => rfl
  | cons operation operations ih =>
      obtain ⟨hfirst, hrest⟩ := List.forall_mem_cons.1 h
      rw [performs, hfirst s user]
      exact congrArg (_ :: ·) (ih hrest _ _)

end

end ArmSession
