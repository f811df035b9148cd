import ArmSession.Proofs.PeerFilter
import ArmSession.Proofs.RealtimePorts
import ArmSession.Proofs.Recorder

/-!
# What a network link asks of its user

A network link refuses to send before it knows a peer, it refuses messages that are too large, and
a receive never waits for less than a microsecond. A session comes nowhere near: it sends messages
of two sizes only, on the realtime channel it sends nothing before it has received something, and
its timeouts are milliseconds of a valid configuration.
-/

namespace ArmSession

open Net

/-- The answer is not that there is no peer or that the message is too large. -/
def Admitted (answer : Except LinkError Unit) : Prop :=
  answer ≠ .error .noPeer ∧ ∀ size, answer ≠ .error (.messageTooLarge size)

/-- A timeout of a millisecond or more, which a socket takes as it is. -/
structure Patient (timeout : Duration) : Prop where
  long : 1000000 ≤ timeout.nanos
  taken : patience timeout = timeout.nanos / 1000

/-- The calls of one operation on one link, none of which breaks a precondition of the link. -/
inductive Prepared : List LinkCall → Prop
  | nil : Prepared []
  | receive {c : Channel} {timeout : Duration} {answer : Except LinkError Bytes}
      {calls : List LinkCall} (patient : Patient timeout) (rest : Prepared calls) :
      Prepared (.receive c timeout answer :: calls)
  | request {m : Bytes} {answer : Except LinkError Unit} {calls : List LinkCall}
      (size : m.length = 8) (admitted : Admitted answer) (rest : Prepared calls) :
      Prepared (.send .service m answer :: calls)
  /-- Who sends on the realtime channel has received there just before. -/
  | exchange {timeout : Duration} {m command : Bytes} {answer : Except LinkError Unit}
      {calls : List LinkCall} (patient : Patient timeout) (size : command.length = 198)
      (admitted : Admitted answer) (rest : Prepared calls) :
      Prepared (.receive .realtime timeout (.ok m) :: .send .realtime command answer :: calls)

namespace Prepared

variable {calls more : List LinkCall}

theorem append (h : Prepared calls) (h' : Prepared more) : Prepared (calls ++ more) := by
  induction h with
  | nil => exact h'
  | receive patient _ ih => exact .receive patient ih
  | request size admitted _ ih => exact .request size admitted ih
  | exchange patient size admitted _ ih => exact .exchange patient size admitted ih

theorem of_receives {c : Channel} {timeout : Duration} (htimeout : Patient timeout)
    (heard : List (Except LinkError Bytes)) :
    Prepared (heard.map (LinkCall.receive c timeout)) := by
  induction heard with
  | nil => exact .nil
  | cons answer heard ih => exact .receive htimeout ih

end Prepared

theorem admitted_ok : Admitted (.ok ()) := ⟨nofun, nofun⟩

theorem admitted_onStream (e : IoError) : Admitted (.error e.onStream) := by
  unfold IoError.onStream
  split <;> exact ⟨nofun, nofun⟩

namespace Net.NetworkLink

variable {l l' : NetworkLink} {m : Bytes}

theorem admitted_write (l : NetworkLink) (bs : Bytes) : Admitted (l.write bs).1 := by
  unfold write
  dsimp only
  cases (l.stream.write bs).1 with
  | error e => exact admitted_onStream e
  | ok _ => exact admitted_ok

theorem admitted_sendService (l : NetworkLink) (h : m.length ≤ maxServiceMessage) :
    Admitted (l.sendService m).1 := by
  unfold sendService
  split
  · exact ⟨nofun, nofun⟩
  · rw [if_neg (Nat.not_lt.2 h)]
    have hlength := l.admitted_write (Wire.littleEndian lengthSize m.length)
    split
    · next e l₁ hwrite =>
        rw [hwrite] at hlength
        exact hlength
    · next l₁ hwrite => exact l₁.admitted_write m

theorem admitted_sendRealtime {peer : Endpoint} (hpeer : l.peer = some peer)
    (h : m.length ≤ maxDatagram) : Admitted (l.sendRealtime m).1 := by
  unfold sendRealtime
  rw [hpeer]
  dsimp only
  rw [if_neg (Nat.not_lt.2 h)]
  cases (l.socket.transmit ⟨peer, m⟩).1 with
  | error e => exact ⟨nofun, nofun⟩
  | ok _ => exact admitted_ok

/-- Whoever has received knows a peer. -/
theorem peer_of_receive {timeout : Duration}
    (h : l.receiveRealtime timeout = (.ok m, l')) : ∃ peer, l'.peer = some peer := by
  rw [← receiveRealtimeAt_zero] at h
  have htells := l.receiveRealtimeAt_tells (fun _ => 0) timeout
  rw [h] at htells
  obtain ⟨taken, hpassage, htold⟩ := htells
  cases hpeer : l'.peer with
  | some peer => exact ⟨peer, rfl⟩
  | none =>
      rw [hpassage.taken_eq_nil hpeer] at htold
      cases htold

end Net.NetworkLink

def Prepares (t t' : Traced NetworkLink) : Prop :=
  ∃ calls, t'.calls = t.calls ++ calls ∧ Prepared calls

namespace Prepares

variable {t t' t'' : Traced NetworkLink}

theorem refl (t : Traced NetworkLink) : Prepares t t := ⟨[], (List.append_nil _).symm, .nil⟩

theorem trans (h : Prepares t t') (h' : Prepares t' t'') : Prepares t t'' := by
  obtain ⟨calls, hcalls, hprepared⟩ := h
  obtain ⟨more, hmore, hprepared'⟩ := h'
  exact ⟨calls ++ more, by rw [hmore, hcalls, List.append_assoc], hprepared.append hprepared'⟩

theorem prepared (h : Prepares t t') (ht : Prepared t.calls) : Prepared t'.calls := by
  obtain ⟨calls, hcalls, hprepared⟩ := h
  rw [hcalls]
  exact ht.append hprepared

theorem of_receive {c : Channel} {timeout : Duration} {answer : Except LinkError Bytes}
    (htimeout : Patient timeout) (h : Link.receive c timeout t = (answer, t')) :
    Prepares t t' :=
  ⟨_, (Traced.receive_eq h).2, .receive htimeout .nil⟩

theorem of_exchange {timeout : Duration} {m : Bytes} {command : RobotCommand}
    {answer : Except LinkError Unit} (htimeout : Patient timeout)
    (hreceive : Link.receive .realtime timeout t = (.ok m, t'))
    (hsend : Link.send .realtime command.encode t' = (answer, t'')) : Prepares t t'' := by
  obtain ⟨hreceive, hcalls⟩ := Traced.receive_eq hreceive
  obtain ⟨hsend, hmore⟩ := Traced.send_eq hsend
  refine ⟨[.receive .realtime timeout (.ok m), .send .realtime command.encode answer], ?_, ?_⟩
  · rw [hmore, hcalls, List.append_assoc]
    rfl
  · have hsize : command.encode.length = 198 := command.length_encode
    have hfits : command.encode.length ≤ maxDatagram := hsize ▸ by decide
    obtain ⟨peer, hpeer⟩ := NetworkLink.peer_of_receive hreceive
    have hadmitted := NetworkLink.admitted_sendRealtime hpeer hfits
    rw [show t'.link.sendRealtime command.encode = _ from hsend] at hadmitted
    exact .exchange htimeout hsize hadmitted .nil

end Prepares

namespace ControlLoop

variable {ρ : Type} {c : ControlLoop ρ} {t t' : Traced NetworkLink} {user : ρ}
  {run : Run (Traced NetworkLink) ρ}

theorem Exchanges.prepares {x : Exchange ρ} {receiver : Receiver}
    (h : Exchanges c t user x receiver t') (htimeout : Patient c.receiver.timeout) :
    Prepares t t' := by
  obtain ⟨between, hreceive, hsend⟩ := h.carried
  exact .of_exchange htimeout hreceive hsend

theorem Breaks.prepares (h : Breaks c t user run)
    (htimeout : Patient c.receiver.timeout) : Prepares t run.link := by
  cases h with
  | receive failed => exact .of_receive htimeout failed
  | take arrived _ => exact .of_receive htimeout arrived
  | fault arrived _ _ => exact .of_receive htimeout arrived
  | combine arrived _ _ _ => exact .of_receive htimeout arrived
  | send arrived _ _ _ failed => exact .of_exchange htimeout arrived failed

theorem Course.prepares {xs : List (Exchange ρ)} (h : Course c t user xs run)
    (htimeout : Patient c.receiver.timeout) : Prepares t run.link := by
  induction h with
  | broken last => exact last.prepares htimeout
  | finished last _ => exact last.prepares htimeout
  | @again c _ _ _ _ receiver _ _ first _ _ ih =>
      have hkept : (c.afterSend receiver).receiver.timeout = c.receiver.timeout :=
        Receiver.timeout_of_take first.taken
      exact (first.prepares htimeout).trans (ih (hkept ▸ htimeout))

theorem prepares_run (c : ControlLoop ρ) (htimeout : Patient c.receiver.timeout)
    (t : Traced NetworkLink) (user : ρ) : Prepares t (c.run t user).link := by
  cases hphase : c.phase.isTerminal with
  | true =>
      rw [run_of_terminal hphase]
      exact .refl t
  | false =>
      obtain ⟨xs, hxs⟩ := exists_course c t user
      rw [run_eq hphase]
      exact hxs.prepares htimeout

end ControlLoop

theorem Reading.prepares_run {ρ : Type} (goesOn : Predicate ρ) (r : Receiver)
    (htimeout : Patient r.timeout) (t : Traced NetworkLink) (user : ρ) (count : UInt64) :
    Prepares t (run goesOn r t user count).link := by
  obtain ⟨-, heard, hcalls⟩ := run_traced goesOn r t user count
  exact ⟨_, hcalls, .of_receives htimeout heard⟩

theorem prepares_negotiate {timeout : Duration} (htimeout : Patient timeout)
    (t : Traced NetworkLink) : Prepares t (negotiate timeout t).link := by
  have hrequest : ∀ {answer : Except LinkError Unit} {t' : Traced NetworkLink},
      Link.send .service (ConnectRequest.on t).encode t = (answer, t') → Prepares t t' := by
    intro answer t' hsend
    obtain ⟨hsend, hcalls⟩ := Traced.send_eq hsend
    have hsize : (ConnectRequest.on t).encode.length = 8 := ConnectRequest.length_encode _
    have hfits : (ConnectRequest.on t).encode.length ≤ maxServiceMessage := hsize ▸ by decide
    have hadmitted := t.link.admitted_sendService hfits
    rw [show t.link.sendService _ = _ from hsend] at hadmitted
    exact ⟨_, hcalls, .request hsize hadmitted .nil⟩
  rcases oneRequest_negotiate timeout t with ⟨e, hsend⟩ | ⟨answer, between, hsend, hreceive⟩
  · exact hrequest hsend
  · exact (hrequest hsend).trans (.of_receive htimeout hreceive)

theorem patient_ofMillis {ms : UInt64} (h : ms ≠ 0) : Patient (.ofMillis ms) := by
  have hpositive : 0 < ms.toNat := Nat.pos_of_ne_zero fun hzero => h (UInt64.toNat_inj.1 hzero)
  have hlong : 1000000 ≤ (Duration.ofMillis ms).nanos := Nat.le_mul_of_pos_left _ hpositive
  exact ⟨hlong, Nat.max_eq_right (by omega)⟩

theorem Config.HasTimeouts.patient {c : Config} (h : c.HasTimeouts) :
    Patient c.handshakeTimeout ∧ Patient c.cycleTimeout :=
  ⟨patient_ofMillis h.2.1, patient_ofMillis h.2.2⟩

variable {κ ρ : Type}

def Recorder.WellUsed (k : Recorder κ NetworkLink) : Prop := ∀ t ∈ k.returned, Prepared t.calls

theorem Recorder.wellUsed_of (connector : κ) : (Recorder.of connector).WellUsed :=
  fun _ ht => absurd ht List.not_mem_nil

structure Session.WellUsed (s : Session (Recorder κ NetworkLink) (Traced NetworkLink)) : Prop where
  returned : s.connector.WellUsed
  link : Prepared s.link.calls

namespace Session

variable {s : Session (Recorder κ NetworkLink) (Traced NetworkLink)}

theorem wellUsed_recorded (s : Session κ NetworkLink) : s.recorded.WellUsed :=
  ⟨Recorder.wellUsed_of s.connector, .nil⟩

theorem WellUsed.control (hs : s.WellUsed) (hvalid : s.config.HasTimeouts) (mode : Mode)
    (motion torque : Option (Callback ρ)) (user : ρ) :
    (s.control mode motion torque user).session.WellUsed := by
  obtain ⟨link, scheduler, hsession, hlink⟩ := s.session_control mode motion torque user
  rw [hsession]
  refine ⟨hs.returned, ?_⟩
  rcases hlink with rfl | ⟨c, hnew, rfl⟩
  · exact hs.link
  · obtain ⟨-, hreceiver, -⟩ := ControlLoop.initial_of_new hnew
    have htimeout : Patient c.receiver.timeout := hreceiver ▸ hvalid.patient.2
    exact (c.prepares_run htimeout s.link user).prepared hs.link

theorem WellUsed.read (hs : s.WellUsed) (hvalid : s.config.HasTimeouts) (goesOn : Predicate ρ)
    (user : ρ) : (s.read goesOn user).session.WellUsed where
  returned := hs.returned
  link := (Reading.prepares_run goesOn _ hvalid.patient.2 s.link user 0).prepared hs.link

end Session

section

variable [Connector κ NetworkLink]

theorem Recorder.WellUsed.release {k : Recorder κ NetworkLink} {t : Traced NetworkLink}
    (hk : k.WellUsed) (ht : Prepared t.calls) :
    (Connector.release t k : Recorder κ NetworkLink).WellUsed :=
  List.forall_mem_append.2 ⟨hk, List.forall_mem_singleton.2 ht⟩

theorem Opening.wellUsed {k : Recorder κ NetworkLink} {config : Config}
    (hvalid : config.HasTimeouts) (hk : k.WellUsed) (address : String) :
    (Opening.of k address config).connector.WellUsed ∧ ∀ opened,
      (Opening.of k address config).result = .ok opened → Prepared opened.1.calls := by
  cases hconnect : (Connector.connect address k.connector : Except LinkError NetworkLink × κ) with
  | mk answer connector =>
  have hrecorded := Recorder.connect_eq hconnect
  cases answer with
  | error e =>
      obtain ⟨hresult, hconnector⟩ := Opening.of_unlinked hrecorded config
      rw [hresult, hconnector]
      exact ⟨hk, fun opened hopened => by cases hopened⟩
  | ok link =>
      obtain ⟨hresult, hconnector⟩ := Opening.of_linked hrecorded config
      have hprepared := (prepares_negotiate hvalid.patient.1 (Traced.start link)).prepared .nil
      rw [hresult, hconnector]
      cases (negotiate config.handshakeTimeout (Traced.start link)).result with
      | error e =>
          exact ⟨Recorder.WellUsed.release hk hprepared, fun opened hopened => by cases hopened⟩
      | ok version =>
          refine ⟨hk, fun opened hopened => ?_⟩
          cases hopened
          exact hprepared

namespace Session

variable {s : Session (Recorder κ NetworkLink) (Traced NetworkLink)}

theorem WellUsed.reconnect (hs : s.WellUsed) (hvalid : s.config.HasTimeouts) :
    s.reconnect.session.WellUsed := by
  obtain ⟨hreturned, hlink⟩ := Opening.wellUsed hvalid hs.returned s.address
  cases hopening : (Opening.of s.connector s.address s.config).result with
  | error e =>
      rw [(reconnect_of_error hopening).2]
      exact ⟨hreturned, hs.link⟩
  | ok opened =>
      rw [(reconnect_of_ok hopening).2]
      exact ⟨hreturned.release hs.link, hlink opened hopening⟩

theorem WellUsed.perform (hs : s.WellUsed) (hvalid : s.config.HasTimeouts) (user : ρ)
    (operation : Operation ρ) : (s.perform user operation).session.WellUsed := by
  cases operation with
  | reconnect => exact hs.reconnect hvalid
  | reschedule scheduler => exact ⟨hs.returned, hs.link⟩
  | call call =>
      cases call with
      | control mode motion torque => exact hs.control hvalid mode motion torque user
      | read goesOn => exact hs.read hvalid goesOn user
      | readOnce =>
          exact hs.read hvalid (fun state _ => (false, some state)) (none : Option RobotState)

theorem wellUsed_connect (connector : κ) (address : String) (config : Config)
    (scheduler : Scheduler) :
    let connecting := connect (Recorder.of connector) address config scheduler
    connecting.connector.WellUsed ∧ ∀ s, connecting.result = .ok s → s.WellUsed := by
  unfold connect
  cases hvalidate : config.validate with
  | error e => exact ⟨Recorder.wellUsed_of connector, fun s hs => by cases hs⟩
  | ok _ =>
      have hvalid : config.HasTimeouts := config.validate_eq_ok_iff.1 hvalidate
      obtain ⟨hreturned, hlink⟩ := Opening.wellUsed hvalid (Recorder.wellUsed_of connector) address
      dsimp only
      cases hopening :
          (Opening.of (Recorder.of connector : Recorder κ NetworkLink) address config).result with
      | error e => exact ⟨hreturned, fun s hs => by cases hs⟩
      | ok opened =>
          refine ⟨hreturned, fun s hs => ?_⟩
          cases hs
          exact ⟨hreturned, hlink opened hopening⟩

/-- Connecting and every operation of a session, whatever was done with it before, use their links
with preparation. What is on record of them is what they do without a record. -/
theorem keeps_preconditions (connector : κ) (address : String) (config : Config)
    (scheduler : Scheduler) :
    let recorded := connect (Recorder.of connector) address config scheduler
    let connecting := connect connector address config scheduler
    (recorded.plain = connecting ∧ recorded.connector.WellUsed ∧
        ∀ s, recorded.result = .ok s → s.WellUsed) ∧
      ∀ s₀ s, connecting.result = .ok s₀ → s₀.Reaches s →
        ∀ {ρ : Type} (user : ρ) (operation : Operation ρ),
          let outcome := s.recorded.perform user operation
          outcome.plain = s.perform user operation ∧ outcome.session.WellUsed := by
  intro recorded connecting
  refine ⟨⟨connect_plain _ address config scheduler,
    wellUsed_connect connector address config scheduler⟩, ?_⟩
  intro s₀ s hconnect hreaches ρ user operation
  obtain ⟨hvalid, opened, -, rfl⟩ := opened_of_connect hconnect
  have hkept : s.recorded.config = config := hreaches.config_eq
  exact ⟨s.recorded.perform_plain user operation,
    (wellUsed_recorded s).perform (hkept ▸ hvalid) user operation⟩

end Session

end

/-- The controller sends a state, and the session answers it and is done. -/
theorem Session.keeps_preconditions_of_exchange :
    let state : Datagram := ⟨⟨.v4 127 0 0 1, 0, 40010⟩, RobotState.initial.encode⟩
    let reporting : Connection :=
      { NetworkSession.agreeing 40001 with incoming := [⟨500, .datagram state⟩] }
    let host : Host := { Host.isolated with dials := [.ok reporting] }
    let hold : Callback Unit := fun s _ u =>
      (.ofSetpoint .jointPosition (.asFinished (.ongoing s.jointPositions)), u)
    let call : LinkUse Unit := .control (.motionOnly .jointPosition) (some hold) none
    ∃ s, (NetworkSession.connectWith host "127.0.0.1" .standard (.always (.ok ()))).result = .ok s ∧
      Session.Reaches s s ∧
      let outcome := s.recorded.perform () (.call call)
      outcome.session.link.calls.length = 2 ∧ outcome.plain = s.perform () (.call call) ∧
        outcome.session.WellUsed := by
  intro state reporting host hold call
  obtain ⟨s, hconnect, hcalls⟩ : ∃ s,
      (NetworkSession.connectWith host "127.0.0.1" .standard (.always (.ok ()))).result = .ok s ∧
        (s.recorded.perform () (.call call)).session.link.calls.length = 2 :=
    ⟨_, rfl, by decide +kernel⟩
  obtain ⟨-, hoperations⟩ := Session.keeps_preconditions
    (⟨Config.standard.connectOptions, host, []⟩ : NetworkConnector) "127.0.0.1" .standard
    (.always (.ok ()))
  exact ⟨s, hconnect, .none s, hcalls, hoperations s s hconnect (.none s) () (.call call)⟩

end ArmSession
