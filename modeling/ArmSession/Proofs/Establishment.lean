import ArmSession.Proofs.Operations

/-!
# Establishing a session

A session begins when the controller answers the one request of the handshake with success and
exactly the version of this library. Anything else ends in a failure whose kind tells what went
wrong. As a reconnect goes the same way before it replaces anything, the session has that version
and a link with that answer after whatever operations.
-/

namespace ArmSession

def failureKind? {α : Type} : Except Failure α → Option FailureKind
  | .ok _ => none
  | .error e => some e.kind

/-- The one response that lets a session begin. -/
def ConnectResponse.agreement : ConnectResponse := ⟨.success, protocolVersion⟩

theorem ConnectResponse.agrees_of_ne {r : ConnectResponse} (h : r ≠ agreement) :
    r.agrees = .error (.incompatibleVersion protocolVersion r.version) := by
  apply if_neg
  rintro ⟨hstatus, hversion⟩
  obtain ⟨status, version⟩ := r
  cases hstatus
  cases hversion
  exact h rfl

def Config.HasTimeouts (c : Config) : Prop :=
  c.connectTimeoutMs ≠ 0 ∧ c.handshakeTimeoutMs ≠ 0 ∧ c.cycleTimeoutMs ≠ 0

theorem Config.exists_validate_eq_error {c : Config} (h : ¬c.HasTimeouts) :
    ∃ e, c.validate = .error e := by
  cases hvalidate : c.validate with
  | error e => exact ⟨e, rfl⟩
  | ok u => exact absurd (c.validate_eq_ok_iff.1 hvalidate) h

section

variable {σ : Type} [Link σ]

def ConnectRequest.on (link : σ) : ConnectRequest := ⟨protocolVersion, Link.realtimePort link⟩

/-- The request is sent on the link, and then this is the answer. -/
def Replies (timeout : Duration) (link : σ) (answer : Except LinkError Bytes) (link' : σ) : Prop :=
  ∃ between, Link.send .service (ConnectRequest.on link).encode link = (.ok (), between) ∧
    Link.receive .service timeout between = (answer, link')

def Agreed (timeout : Duration) (link link' : σ) : Prop :=
  ∃ reply, Replies timeout link (.ok reply) link' ∧
    ConnectResponse.decode reply = .ok .agreement

/-- The ways in which a handshake can go, with the kind of failure that it comes to. -/
inductive Handshake (timeout : Duration) (link : σ) : Option FailureKind → Prop
  | unsent {e : LinkError} {link' : σ}
      (send : Link.send .service (ConnectRequest.on link).encode link = (.error e, link')) :
      Handshake timeout link (some .network)
  | unanswered {e : LinkError} {link' : σ} (answer : Replies timeout link (.error e) link') :
      Handshake timeout link (some .network)
  | malformed {reply : Bytes} {e : MessageError} {link' : σ}
      (answer : Replies timeout link (.ok reply) link')
      (decoded : ConnectResponse.decode reply = .error e) :
      Handshake timeout link (some .protocol)
  | refused {reply : Bytes} {response : ConnectResponse} {link' : σ}
      (answer : Replies timeout link (.ok reply) link')
      (decoded : ConnectResponse.decode reply = .ok response)
      (other : response ≠ .agreement) :
      Handshake timeout link (some .incompatibleVersion)
  | agreed {link' : σ} (agreed : Agreed timeout link link') : Handshake timeout link none

variable {timeout : Duration} {link link' : σ} {kind : Option FailureKind}

theorem negotiate_of_unsent {e : LinkError}
    (h : Link.send .service (ConnectRequest.on link).encode link = (.error e, link')) :
    (negotiate timeout link).result = .error (.link e) ∧ (negotiate timeout link).link = link' := by
  unfold ConnectRequest.on at h
  unfold negotiate
  dsimp only
  rw [h]
  exact ⟨rfl, rfl⟩

theorem negotiate_of_unanswered {e : LinkError} (h : Replies timeout link (.error e) link') :
    (negotiate timeout link).result = .error (.link e) ∧ (negotiate timeout link).link = link' := by
  obtain ⟨between, hsend, hreceive⟩ := h
  unfold ConnectRequest.on at hsend
  unfold negotiate
  dsimp only
  rw [hsend]
  dsimp only
  rw [hreceive]
  exact ⟨rfl, rfl⟩

theorem negotiate_of_answered {reply : Bytes} (h : Replies timeout link (.ok reply) link') :
    (negotiate timeout link).result =
        (match ConnectResponse.decode reply with
          | .error e => .error (.message e)
          | .ok response => response.agrees) ∧
      (negotiate timeout link).link = link' := by
  obtain ⟨between, hsend, hreceive⟩ := h
  unfold ConnectRequest.on at hsend
  unfold negotiate
  dsimp only
  rw [hsend]
  dsimp only
  rw [hreceive]
  dsimp only
  cases ConnectResponse.decode reply with
  | error e => exact ⟨rfl, rfl⟩
  | ok response =>
      dsimp only
      cases response.agrees with
      | error e => exact ⟨rfl, rfl⟩
      | ok version => exact ⟨rfl, rfl⟩

theorem negotiate_of_agreed (h : Agreed timeout link link') :
    (negotiate timeout link).result = .ok protocolVersion ∧
      (negotiate timeout link).link = link' := by
  obtain ⟨reply, hanswer, hdecoded⟩ := h
  have hnegotiate := negotiate_of_answered hanswer
  rw [hdecoded] at hnegotiate
  exact hnegotiate

theorem Handshake.kind_eq (h : Handshake timeout link kind) :
    failureKind? (negotiate timeout link).result = kind := by
  cases h with
  | unsent send => rw [(negotiate_of_unsent send).1]; rfl
  | unanswered answer => rw [(negotiate_of_unanswered answer).1]; rfl
  | malformed answer decoded => rw [(negotiate_of_answered answer).1, decoded]; rfl
  | refused answer decoded other =>
      rw [(negotiate_of_answered answer).1, decoded]
      dsimp only
      rw [ConnectResponse.agrees_of_ne other]
      rfl
  | agreed agreed => rw [(negotiate_of_agreed agreed).1]; rfl

theorem exists_handshake (timeout : Duration) (link : σ) : ∃ kind, Handshake timeout link kind := by
  cases hsend : Link.send .service (ConnectRequest.on link).encode link with
  | mk sent between =>
  cases sent with
  | error e => exact ⟨_, .unsent hsend⟩
  | ok _ =>
      cases hreceive : Link.receive .service timeout between with
      | mk answer link' =>
      cases answer with
      | error e => exact ⟨_, .unanswered ⟨between, hsend, hreceive⟩⟩
      | ok reply =>
          have hanswer : Replies timeout link (.ok reply) link' := ⟨between, hsend, hreceive⟩
          cases hdecoded : ConnectResponse.decode reply with
          | error e => exact ⟨_, .malformed hanswer hdecoded⟩
          | ok response =>
              by_cases hagreement : response = .agreement
              · exact ⟨_, .agreed ⟨reply, hanswer, hagreement ▸ hdecoded⟩⟩
              · exact ⟨_, .refused hanswer hdecoded hagreement⟩

theorem handshake_iff : Handshake timeout link kind ↔
    failureKind? (negotiate timeout link).result = kind := by
  refine ⟨Handshake.kind_eq, ?_⟩
  rintro rfl
  obtain ⟨kind, h⟩ := exists_handshake timeout link
  rwa [h.kind_eq]

/-- Only an agreement makes a handshake succeed. -/
theorem agreed_of_negotiate {version : UInt16}
    (h : (negotiate timeout link).result = .ok version) :
    version = protocolVersion ∧ Agreed timeout link (negotiate timeout link).link := by
  have hnone : Handshake timeout link none := handshake_iff.2 (by rw [h]; rfl)
  cases hnone with
  | agreed agreed =>
      obtain ⟨hresult, hlink⟩ := negotiate_of_agreed agreed
      rw [h] at hresult
      exact ⟨Except.ok.inj hresult, hlink.symm ▸ agreed⟩

/-- All that a handshake does with a link: it sends the request, and once that is sent it receives
one message, both on the service channel. -/
def OneRequest (timeout : Duration) (link link' : σ) : Prop :=
  (∃ e, Link.send .service (ConnectRequest.on link).encode link = (.error e, link')) ∨
    ∃ answer, Replies timeout link answer link'

theorem oneRequest_negotiate (timeout : Duration) (link : σ) :
    OneRequest timeout link (negotiate timeout link).link := by
  obtain ⟨kind, h⟩ := exists_handshake timeout link
  cases h with
  | unsent send => exact .inl ⟨_, (negotiate_of_unsent send).2 ▸ send⟩
  | unanswered answer => exact .inr ⟨_, (negotiate_of_unanswered answer).2 ▸ answer⟩
  | malformed answer decoded => exact .inr ⟨_, (negotiate_of_answered answer).2 ▸ answer⟩
  | refused answer decoded other => exact .inr ⟨_, (negotiate_of_answered answer).2 ▸ answer⟩
  | agreed agreed =>
      obtain ⟨reply, answer, -⟩ := agreed
      exact .inr ⟨_, (negotiate_of_answered answer).2 ▸ answer⟩

end

namespace ScriptedLink

variable {l l' : ScriptedLink}

structure Asked (l l' : ScriptedLink) : Prop where
  realtime : l'.realtime = l.realtime
  service : l'.service = l.service ∨ l'.service = l.service.tail
  sent : l'.sent = l.sent ∨ l'.sent = l.sent ++ [(.service, (ConnectRequest.on l).encode)]

theorem asked_send {answer : Except LinkError Unit}
    (h : send .service (ConnectRequest.on l).encode l = (answer, l')) :
    Asked l l' ∧ l'.service = l.service := by
  cases answer with
  | error e =>
      obtain ⟨rfl, -⟩ := send_eq_error h
      exact ⟨⟨rfl, .inl rfl, .inl rfl⟩, rfl⟩
  | ok _ =>
      obtain ⟨-, -, rfl⟩ := send_eq_ok_iff.1 h
      exact ⟨⟨rfl, .inl rfl, .inr rfl⟩, rfl⟩

theorem queues_receive {timeout : Duration} {answer : Except LinkError Bytes}
    (h : receive .service timeout l = (answer, l')) :
    l'.realtime = l.realtime ∧ (l'.service = l.service ∨ l'.service = l.service.tail) := by
  cases hfront : l.front? .service with
  | some m =>
      cases (receive_of_front? hfront).symm.trans h
      exact ⟨rfl, .inr rfl⟩
  | none =>
      obtain ⟨e, taken, rest, closed, he, hqueue, hshort, -⟩ :=
        receive_of_front?_eq_none timeout hfront
      cases he.symm.trans h
      have hservice : l.service = taken ++ rest := hqueue
      refine ⟨rfl, ?_⟩
      cases taken with
      | nil => exact .inl hservice.symm
      | cons reply more =>
          obtain rfl : more = [] := List.eq_nil_of_length_eq_zero (by simpa using hshort)
          rw [hservice]
          exact .inr rfl

theorem asked_of_oneRequest {timeout : Duration} (h : OneRequest timeout l l') : Asked l l' := by
  rcases h with ⟨e, hsend⟩ | ⟨answer, between, hsend, hreceive⟩
  · exact (asked_send hsend).1
  · obtain ⟨hasked, hkept⟩ := asked_send hsend
    obtain ⟨hrealtime, hservice⟩ := queues_receive hreceive
    have hsent : l'.sent = between.sent := sent_receive hreceive
    refine ⟨hrealtime.trans hasked.realtime, ?_, ?_⟩
    · rwa [hkept] at hservice
    · rw [hsent]
      exact hasked.sent

end ScriptedLink

section

variable {κ σ : Type} [Link σ] [Connector κ σ]

inductive Attempt (connector : κ) (address : String) (config : Config) : Option FailureKind → Prop
  | invalid (invalid : ¬config.HasTimeouts) :
      Attempt connector address config (some .invalidArgument)
  | unlinked {e : LinkError} {connector' : κ} (valid : config.HasTimeouts)
      (connect : Connector.connect address connector = (.error e, connector')) :
      Attempt connector address config (some .network)
  | linked {link : σ} {connector' : κ} {kind : Option FailureKind} (valid : config.HasTimeouts)
      (connect : Connector.connect address connector = (.ok link, connector'))
      (handshake : Handshake config.handshakeTimeout link kind) :
      Attempt connector address config kind

variable {connector connector' : κ} {address : String} {config : Config} {link : σ}
  {kind : Option FailureKind}

theorem Opening.of_unlinked {e : LinkError}
    (h : Connector.connect address connector = (.error e, connector')) (config : Config) :
    (Opening.of connector address config).result = .error (.link e) ∧
      (Opening.of connector address config).connector = connector' := by
  unfold Opening.of
  dsimp only
  rw [h]
  exact ⟨rfl, rfl⟩

theorem Opening.of_linked (h : Connector.connect address connector = (.ok link, connector'))
    (config : Config) :
    let agreement := negotiate config.handshakeTimeout link
    (Opening.of connector address config).result =
        agreement.result.map (agreement.link, ·) ∧
      (Opening.of connector address config).connector =
        match agreement.result with
        | .error _ => Connector.release agreement.link connector'
        | .ok _ => connector' := by
  unfold Opening.of
  dsimp only
  rw [h]
  dsimp only
  cases (negotiate config.handshakeTimeout link).result with
  | error e => exact ⟨rfl, rfl⟩
  | ok version => exact ⟨rfl, rfl⟩

/-- Only an agreement makes an opening succeed. -/
theorem Opening.agreed {version : UInt16}
    (h : (Opening.of connector address config).result = .ok (link, version)) :
    version = protocolVersion ∧ ∃ opened connector', Agreed config.handshakeTimeout opened link ∧
      Connector.connect address connector = (.ok opened, connector') := by
  cases hconnect : (Connector.connect address connector : Except LinkError σ × κ) with
  | mk answer connector' =>
  cases answer with
  | error e =>
      rw [(Opening.of_unlinked hconnect config).1] at h
      cases h
  | ok opened =>
      rw [(Opening.of_linked hconnect config).1] at h
      cases hresult : (negotiate config.handshakeTimeout opened).result with
      | error e =>
          rw [hresult] at h
          cases h
      | ok version' =>
          rw [hresult] at h
          cases h
          obtain ⟨hversion, hagreed⟩ := agreed_of_negotiate hresult
          exact ⟨hversion, opened, connector', hagreed, rfl⟩

theorem Session.connect_of_invalid (h : ¬config.HasTimeouts) (connector : κ) (address : String)
    (scheduler : Scheduler) : ∃ e, Session.connect connector address config scheduler =
      ⟨.error (.config e), connector, []⟩ := by
  obtain ⟨e, he⟩ := Config.exists_validate_eq_error h
  refine ⟨e, ?_⟩
  unfold connect
  rw [he]

theorem Session.connect_of_valid (h : config.HasTimeouts) (connector : κ) (address : String)
    (scheduler : Scheduler) :
    let opening := Opening.of connector address config
    (Session.connect connector address config scheduler).result = opening.result.map fun opened =>
      ⟨opening.connector, address, config, opened.1, opened.2, scheduler⟩ := by
  unfold connect
  rw [config.validate_eq_ok_iff.2 h]
  dsimp only
  cases (Opening.of connector address config).result with
  | error e => rfl
  | ok opened => rfl

/-- A new session has a valid configuration and a link that was opened for it. -/
theorem Session.opened_of_connect {scheduler : Scheduler} {s : Session κ σ}
    (h : (Session.connect connector address config scheduler).result = .ok s) :
    config.HasTimeouts ∧ ∃ opened, (Opening.of connector address config).result = .ok opened ∧
      s = ⟨(Opening.of connector address config).connector, address, config, opened.1, opened.2,
        scheduler⟩ := by
  by_cases hvalid : config.HasTimeouts
  · rw [connect_of_valid hvalid] at h
    cases hopening : (Opening.of connector address config).result with
    | error e =>
        rw [hopening] at h
        cases h
    | ok opened =>
        rw [hopening] at h
        cases h
        exact ⟨hvalid, opened, rfl, rfl⟩
  · obtain ⟨e, he⟩ := connect_of_invalid hvalid connector address scheduler
    rw [he] at h
    cases h

theorem Attempt.kind_eq (h : Attempt connector address config kind) (scheduler : Scheduler) :
    failureKind? (Session.connect connector address config scheduler).result = kind := by
  cases h with
  | invalid invalid =>
      obtain ⟨e, he⟩ := Session.connect_of_invalid invalid connector address scheduler
      rw [he]
      rfl
  | unlinked valid connect =>
      rw [Session.connect_of_valid valid, (Opening.of_unlinked connect config).1]
      rfl
  | @linked link connector' _ valid connect handshake =>
      rw [Session.connect_of_valid valid, (Opening.of_linked connect config).1, ← handshake.kind_eq]
      cases (negotiate config.handshakeTimeout link).result with
      | error e => rfl
      | ok version => rfl

theorem exists_attempt (connector : κ) (address : String) (config : Config) :
    ∃ kind, Attempt connector address config kind := by
  by_cases hvalid : config.HasTimeouts
  · cases hconnect : (Connector.connect address connector : Except LinkError σ × κ) with
    | mk answer connector' =>
    cases answer with
    | error e => exact ⟨_, .unlinked hvalid hconnect⟩
    | ok link =>
        obtain ⟨kind, hhandshake⟩ := exists_handshake config.handshakeTimeout link
        exact ⟨kind, .linked hvalid hconnect hhandshake⟩
  · exact ⟨_, .invalid hvalid⟩

theorem attempt_iff (scheduler : Scheduler) : Attempt connector address config kind ↔
    failureKind? (Session.connect connector address config scheduler).result = kind := by
  refine ⟨fun h => h.kind_eq scheduler, ?_⟩
  rintro rfl
  obtain ⟨kind, h⟩ := exists_attempt connector address config
  rwa [h.kind_eq scheduler]

/-- The version is that of this library, and the link comes from a connector. The controller agreed
on it, and since then it was used on the realtime channel alone. -/
structure Session.Pinned (s : Session κ σ) : Prop where
  version : s.serverVersion = protocolVersion
  link : ∃ (asked left : κ) (opened agreed : σ),
    Connector.connect s.address asked = (.ok opened, left) ∧
      Agreed s.config.handshakeTimeout opened agreed ∧ RealtimeTraffic agreed s.link

theorem Session.pinned_connect {scheduler : Scheduler} {s : Session κ σ}
    (h : (Session.connect connector address config scheduler).result = .ok s) : s.Pinned := by
  obtain ⟨-, opened, hopening, rfl⟩ := opened_of_connect h
  obtain ⟨hversion, link, left, hagreed, hconnect⟩ := Opening.agreed hopening
  exact ⟨hversion, connector, left, link, opened.1, hconnect, hagreed, .refl _⟩

theorem Session.Pinned.of_uses {s s' : Session κ σ} (h : s.Uses s') (hs : s.Pinned) :
    s'.Pinned := by
  obtain ⟨link, scheduler, rfl, htraffic⟩ := h
  obtain ⟨asked, left, opened, agreed, hconnect, hagreed, hused⟩ := hs.link
  exact ⟨hs.version, asked, left, opened, agreed, hconnect, hagreed, hused.trans htraffic⟩

theorem Session.Pinned.reconnect {s : Session κ σ} (hs : s.Pinned) :
    s.reconnect.session.Pinned := by
  cases hopening : (Opening.of s.connector s.address s.config).result with
  | error e =>
      rw [(reconnect_of_error hopening).2]
      exact ⟨hs.version, hs.link⟩
  | ok opened =>
      rw [(reconnect_of_ok hopening).2]
      obtain ⟨hversion, link, left, hagreed, hconnect⟩ := Opening.agreed hopening
      exact ⟨hversion, s.connector, left, link, opened.1, hconnect, hagreed, .refl _⟩

theorem Session.Reaches.pinned {s s' : Session κ σ} (h : s.Reaches s') (hs : s.Pinned) :
    s'.Pinned :=
  h.invariant hs (fun _ _ huses hs => hs.of_uses huses) fun _ hs => hs.reconnect

structure Establishment (connector : κ) (address : String) (config : Config)
    (scheduler : Scheduler) : Prop where
  /-- A session begins exactly when the controller agrees on a link that the connector opens. -/
  succeeds_iff : (∃ s, (Session.connect connector address config scheduler).result = .ok s) ↔
    config.HasTimeouts ∧ ∃ (link link' : σ) (connector' : κ),
      Connector.connect address connector = (.ok link, connector') ∧
        Agreed config.handshakeTimeout link link'
  kind_iff : ∀ kind, failureKind? (Session.connect connector address config scheduler).result =
    kind ↔ Attempt connector address config kind
  /-- The connector is not asked when the configuration is invalid. -/
  unasked : ¬config.HasTimeouts →
    (Session.connect connector address config scheduler).connector = connector ∧
      (Session.connect connector address config scheduler).log = []
  request : ∀ timeout (link : σ), OneRequest timeout link (negotiate timeout link).link
  /-- The request tells the controller the version and the port on which the link takes states. -/
  message : ∀ link : σ,
    ConnectRequest.decode (ConnectRequest.on link).encode = .ok ⟨2, Link.realtimePort link⟩
  scripted : ∀ timeout (link : ScriptedLink), link.Asked (negotiate timeout link).link
  pinned : ∀ s s', (Session.connect connector address config scheduler).result = .ok s →
    s.Reaches s' → s'.Pinned

/-- Connecting succeeds with an agreement on the version and with nothing else, and the session
that it yields stays on that version, whatever is done with it. -/
theorem Session.connect_pins_version (connector : κ) (address : String) (config : Config)
    (scheduler : Scheduler) : Establishment connector address config scheduler := by
  refine ⟨?_, fun kind => (attempt_iff scheduler).symm, ?_, oneRequest_negotiate,
    fun link => (ConnectRequest.on link).decode_encode,
    fun timeout link => ScriptedLink.asked_of_oneRequest (oneRequest_negotiate timeout link),
    fun s s' hs hreaches => hreaches.pinned (pinned_connect hs)⟩
  · constructor
    · rintro ⟨s, hs⟩
      have hattempt : Attempt connector address config none :=
        (attempt_iff scheduler).2 (by rw [hs]; rfl)
      cases hattempt with
      | linked valid connect handshake =>
          cases handshake with
          | agreed agreed => exact ⟨valid, _, _, _, connect, agreed⟩
    · rintro ⟨hvalid, link, link', connector', hconnect, hagreed⟩
      have hkind := (Attempt.linked hvalid hconnect (.agreed hagreed)).kind_eq scheduler
      cases hresult : (Session.connect connector address config scheduler).result with
      | error e =>
          rw [hresult] at hkind
          cases hkind
      | ok s => exact ⟨s, rfl⟩
  · intro hinvalid
    obtain ⟨e, he⟩ := connect_of_invalid hinvalid connector address scheduler
    rw [he]
    exact ⟨rfl, rfl⟩

end

/-- The controller agrees on the first link and says nothing on the second, and the session keeps
what it has. -/
theorem Session.connect_pins_version_of_silence :
    let agreeing : ScriptedLink :=
      { ScriptedLink.fresh with service := [.message ConnectResponse.agreement.encode] }
    let connector : ScriptedConnector := .ofLinks [agreeing, .fresh]
    ∃ s, (Session.connect connector "robot" .standard (.always (.ok ()))).result = .ok s ∧
      failureKind? s.reconnect.result = some .network ∧ s.reconnect.session.Pinned := by
  intro agreeing connector
  have h := Session.connect_pins_version connector "robot" .standard (.always (.ok ()))
  exact ⟨_, rfl, rfl, h.pinned _ _ rfl (.more () .reconnect (.none _))⟩

end ArmSession
