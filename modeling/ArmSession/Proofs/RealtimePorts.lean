import Mathlib.Data.List.Basic
import ArmSession.NetworkSession
import ArmSession.Proofs.Establishment
import ArmSession.Proofs.LinkChanges
import ArmSession.Proofs.ServiceFraming

/-!
# Ports of a session over the network

A session over the network holds the port of its realtime channel for as long as it has the link.
A reconnect opens the new link before it gives the old one back. So it can never have a fixed port
on the same local address, and fails; a port that the host chooses is not in its way.
-/

namespace ArmSession

namespace Net

def NetworkLink.port (l : NetworkLink) : Ip × UInt16 := (l.socket.near.ip, l.socket.near.port)

namespace NetworkLink

variable {l l' : NetworkLink}

/-- No call moves the realtime channel to another port. -/
theorem port_of_made {s : CallStep NetworkLink} (hmade : s.Made) :
    s.after.port = s.before.port := by
  obtain ⟨before, call, after⟩ := s
  cases call with
  | send c m answer =>
      have hsend : (Link.send c m before).2 = after := by
        rw [show Link.send c m before = _ from hmade]
      cases c with
      | service =>
          obtain ⟨outcomes, written, hafter⟩ := before.sendService_changes m
          obtain rfl : after = _ := hsend.symm.trans hafter
          rfl
      | realtime =>
          obtain ⟨outcomes, transmitted, hafter⟩ := before.sendRealtime_changes m
          obtain rfl : after = _ := hsend.symm.trans hafter
          rfl
  | receive c timeout answer =>
      have hreceive : (Link.receive c timeout before).2 = after := by
        rw [show Link.receive c timeout before = _ from hmade]
      cases c with
      | service =>
          obtain ⟨inflow, outOfStep, now, log, hafter⟩ := before.receiveService_changes timeout
          obtain rfl : after = _ := hreceive.symm.trans hafter
          rfl
      | realtime =>
          obtain ⟨left, peer, now, log, hafter⟩ := before.awaitPeer_changes timeout
            (1000 * before.now + timeout.nanos) before.socket.incoming
          obtain rfl : after = _ := hreceive.symm.trans hafter
          rfl

theorem port_of_traffic {steps : List (CallStep NetworkLink)} (h : Traffic l steps l') :
    l'.port = l.port := by
  induction h with
  | none => rfl
  | more made _ ih => exact ih.trans (port_of_made made)

theorem port_negotiate (timeout : Duration) (l : NetworkLink) :
    (negotiate timeout l).link.port = l.port := by
  rcases oneRequest_negotiate timeout l with ⟨e, hsend⟩ | ⟨answer, between, hsend, hreceive⟩
  · exact port_of_traffic (.of_send hsend (.none _))
  · exact port_of_traffic (.of_send hsend (.of_receive hreceive (.none _)))

end NetworkLink

def Connection.link (c : Connection) (port : UInt16) : NetworkLink where
  stream := ⟨c.inflow, c.writes, []⟩
  socket := ⟨⟨c.near.ip, 0, port⟩, c.incoming, c.transmissions, []⟩
  peer := none
  outOfStep := false
  now := 0
  log := []

def Connection.portFor (c : Connection) (wanted : UInt16) : UInt16 :=
  if wanted = 0 then c.freePort else wanted

namespace NetworkConnector

variable {k k' : NetworkConnector} {far : Endpoint} {c : Connection}

def dialEach (last : LinkError) : List Endpoint → NetworkConnector →
    Except LinkError (Endpoint × Connection) × NetworkConnector
  | [], k => (.error last, k)
  | far :: rest, k =>
    let k := k.noting ("Connecting to controller at " ++ far.text)
    let (outcome, host) := k.host.dial k.options.connectTimeout
    let k := { k with host }
    match outcome with
    | .ok c => (.ok (far, c), k)
    | .error e => dialEach (.io e.text) rest k

/-- The connection that connecting comes to before the realtime channel is opened next to it. -/
def reach (address : String) (k : NetworkConnector) :
    Except LinkError (Endpoint × Connection) × NetworkConnector :=
  match resolve k.host.lookUp k.options.servicePort address with
  | .error e => (.error e, k)
  | .ok endpoints => k.dialEach (.invalidAddress address) endpoints

theorem tryEach_eq (last : LinkError) (endpoints : List Endpoint) (k : NetworkConnector) :
    k.tryEach last endpoints =
      match k.dialEach last endpoints with
      | (.error e, k) => (.error e, k)
      | (.ok (far, c), k) => k.openLink far c := by
  induction endpoints generalizing last k with
  | nil => rfl
  | cons far rest ih =>
      unfold tryEach dialEach
      dsimp only
      cases (k.noting ("Connecting to controller at " ++ far.text)).host.dial
        (k.noting ("Connecting to controller at " ++ far.text)).options.connectTimeout with
      | mk outcome host =>
          cases outcome with
          | ok c => rfl
          | error e => exact ih _ _

theorem connect_eq (address : String) (k : NetworkConnector) :
    Connector.connect address k =
      match k.reach address with
      | (.error e, k) => (.error e, k)
      | (.ok (far, c), k) => k.openLink far c := by
  change connect address k = _
  unfold connect reach
  cases resolve k.host.lookUp k.options.servicePort address with
  | error e => rfl
  | ok endpoints => exact tryEach_eq _ _ _

theorem kept_dialEach (last : LinkError) (endpoints : List Endpoint) (k : NetworkConnector) :
    (k.dialEach last endpoints).2.host.bound = k.host.bound ∧
      (k.dialEach last endpoints).2.options = k.options := by
  induction endpoints generalizing last k with
  | nil => exact ⟨rfl, rfl⟩
  | cons far rest ih =>
      have hbound : (k.host.dial k.options.connectTimeout).2.bound = k.host.bound := by
        unfold Host.dial
        split
        · rfl
        · split <;> rfl
      unfold dialEach
      dsimp only
      split
      · exact ⟨hbound, rfl⟩
      · obtain ⟨hrest, hoptions⟩ := ih _ _
        exact ⟨hrest.trans hbound, hoptions⟩

/-- Dialing takes no ports. -/
theorem kept_reach (address : String) (k : NetworkConnector) :
    (k.reach address).2.host.bound = k.host.bound ∧
      (k.reach address).2.options = k.options := by
  unfold reach
  split
  · exact ⟨rfl, rfl⟩
  · exact kept_dialEach _ _ _

/-- The port that is asked for cannot be had on this address. -/
def PortHeld (k : NetworkConnector) (ip : Ip) : Prop :=
  k.options.realtimePort ≠ 0 ∧ (ip, k.options.realtimePort) ∈ k.host.bound

theorem openLink_of_held (h : k.PortHeld c.near.ip) (far : Endpoint) :
    k.openLink far c = (.error (.io IoError.addressInUse.text), k) := by
  obtain ⟨hwanted, hbound⟩ := h
  unfold openLink
  rw [Host.bind_of_mem _ _ _ _ hwanted hbound]

theorem openLink_of_free (h : ¬k.PortHeld c.near.ip) (far : Endpoint) :
    let port := c.portFor k.options.realtimePort
    ∃ k', k.openLink far c = (.ok (c.link port), k') ∧ k'.options = k.options ∧
      k'.host.bound = (c.near.ip, port) :: k.host.bound := by
  unfold openLink Host.bind Connection.portFor
  by_cases hzero : k.options.realtimePort = 0
  · rw [if_pos hzero, if_pos hzero]
    exact ⟨_, rfl, rfl, rfl⟩
  · have hfree : (c.near.ip, k.options.realtimePort) ∉ k.host.bound :=
      fun hbound => h ⟨hzero, hbound⟩
    rw [if_neg hzero, if_neg hzero, if_neg hfree]
    exact ⟨_, rfl, rfl, rfl⟩

/-- A connect that fails takes no port. -/
theorem kept_of_connect_error {address : String} {e : LinkError}
    (h : Connector.connect address k = (.error e, k')) :
    k'.host.bound = k.host.bound ∧ k'.options = k.options := by
  rw [connect_eq] at h
  have hreach := kept_reach address k
  cases hdialed : k.reach address with
  | mk answer k₁ =>
      rw [hdialed] at h hreach
      cases answer with
      | error e => cases h; exact hreach
      | ok accepted =>
          obtain ⟨far, c⟩ := accepted
          have hopen : k₁.openLink far c = (.error e, k') := h
          by_cases hheld : k₁.PortHeld c.near.ip
          · cases (openLink_of_held hheld far).symm.trans hopen
            exact hreach
          · obtain ⟨k₂, hfree, -⟩ := openLink_of_free hheld far
            cases hfree.symm.trans hopen

/-- A connect that succeeds takes the port of the link. -/
theorem taken_of_connect_ok {address : String} {l : NetworkLink}
    (h : Connector.connect address k = (.ok l, k')) :
    k'.host.bound = l.port :: k.host.bound ∧ k'.options = k.options ∧
      (k.options.realtimePort ≠ 0 → l.port.2 = k.options.realtimePort) := by
  rw [connect_eq] at h
  obtain ⟨hbound, hoptions⟩ := kept_reach address k
  cases hdialed : k.reach address with
  | mk answer k₁ =>
      rw [hdialed] at h hbound hoptions
      cases answer with
      | error e => cases h
      | ok accepted =>
          obtain ⟨far, c⟩ := accepted
          have hopen : k₁.openLink far c = (.ok l, k') := h
          by_cases hheld : k₁.PortHeld c.near.ip
          · cases (openLink_of_held hheld far).symm.trans hopen
          · obtain ⟨k₂, hfree, hkept, htaken⟩ := openLink_of_free hheld far
            cases hfree.symm.trans hopen
            refine ⟨htaken.trans (congrArg _ hbound), hkept.trans hoptions, ?_⟩
            intro hfixed
            rw [← hoptions] at hfixed ⊢
            exact if_neg hfixed

theorem kept_of_opening_error {address : String} {config : Config} {e : Failure}
    (h : (Opening.of k address config).result = .error e) :
    (Opening.of k address config).connector.host.bound = k.host.bound ∧
      (Opening.of k address config).connector.options = k.options := by
  cases hconnect : Connector.connect address k with
  | mk answer k₁ =>
      cases answer with
      | error cause =>
          rw [(Opening.of_unlinked hconnect config).2]
          exact kept_of_connect_error hconnect
      | ok l =>
          obtain ⟨hresult, hconnector⟩ := Opening.of_linked hconnect config
          obtain ⟨htaken, hoptions, -⟩ := taken_of_connect_ok hconnect
          rw [h] at hresult
          cases hnegotiate : (negotiate config.handshakeTimeout l).result with
          | ok version =>
              rw [hnegotiate] at hresult
              cases hresult
          | error cause =>
              rw [hconnector, hnegotiate]
              refine ⟨?_, hoptions⟩
              have hport := NetworkLink.port_negotiate config.handshakeTimeout l
              change k₁.host.bound.erase (negotiate config.handshakeTimeout l).link.port = _
              rw [hport, htaken, List.erase_cons_head]

theorem taken_of_opening_ok {address : String} {config : Config} {l : NetworkLink}
    {version : UInt16} (h : (Opening.of k address config).result = .ok (l, version)) :
    (Opening.of k address config).connector.host.bound = l.port :: k.host.bound ∧
      (Opening.of k address config).connector.options = k.options ∧
      (k.options.realtimePort ≠ 0 → l.port.2 = k.options.realtimePort) := by
  obtain ⟨-, opened, k₁, hagreed, hconnect⟩ := Opening.agreed h
  obtain ⟨-, hconnector⟩ := Opening.of_linked hconnect config
  obtain ⟨hresult, hlink⟩ := negotiate_of_agreed hagreed
  have hport : l.port = opened.port := by
    rw [← hlink]
    exact NetworkLink.port_negotiate config.handshakeTimeout opened
  rw [hresult] at hconnector
  rw [hconnector, hport]
  exact taken_of_connect_ok hconnect

end NetworkConnector

end Net

namespace NetworkSession

open Net

variable {s s' : NetworkSession} {far : Endpoint} {c : Connection} {k : NetworkConnector}

/-- The port of the link is taken, and it is the one of the configuration, if that fixes one. -/
structure HoldsPort (s : NetworkSession) : Prop where
  options : s.connector.options = s.config.connectOptions
  held : s.link.port ∈ s.connector.host.bound
  fixed : s.config.realtimePort ≠ 0 → s.link.port.2 = s.config.realtimePort

theorem holdsPort_connectWith {host : Host} {address : String} {config : Config}
    {scheduler : Scheduler} (h : (connectWith host address config scheduler).result = .ok s) :
    s.HoldsPort ∧ s.config = config := by
  obtain ⟨-, opened, hopening, rfl⟩ := Session.opened_of_connect h
  obtain ⟨htaken, hoptions, hfixed⟩ := NetworkConnector.taken_of_opening_ok hopening
  refine ⟨⟨hoptions, ?_, hfixed⟩, rfl⟩
  rw [htaken]
  exact List.mem_cons_self

theorem HoldsPort.of_uses (h : s.Uses s') (hs : s.HoldsPort) : s'.HoldsPort := by
  obtain ⟨link, scheduler, rfl, steps, htraffic, -⟩ := h
  have hport : link.port = s.link.port := NetworkLink.port_of_traffic htraffic
  refine ⟨hs.options, ?_, ?_⟩
  · rw [hport]
    exact hs.held
  · intro hfixed
    rw [hport]
    exact hs.fixed hfixed

/-- The new port is taken before the old one is given back, and so it stays taken. -/
theorem HoldsPort.reconnect (hs : s.HoldsPort) : HoldsPort s.reconnect.session := by
  cases hopening : (Opening.of s.connector s.address s.config).result with
  | error e =>
      obtain ⟨hbound, hoptions⟩ := NetworkConnector.kept_of_opening_error hopening
      rw [(Session.reconnect_of_error hopening).2]
      exact ⟨hoptions.trans hs.options, hbound.symm ▸ hs.held, hs.fixed⟩
  | ok opened =>
      obtain ⟨l, version⟩ := opened
      obtain ⟨htaken, hoptions, hfixed⟩ := NetworkConnector.taken_of_opening_ok hopening
      rw [(Session.reconnect_of_ok hopening).2]
      refine ⟨hoptions.trans hs.options, ?_, ?_⟩
      · change l.port ∈ (Opening.of s.connector s.address s.config).connector.host.bound.erase
          s.link.port
        rw [htaken]
        -- A port that both links got is held twice, and given back once.
        by_cases hsame : l.port = s.link.port
        · rw [hsame, List.erase_cons_head]
          exact hs.held
        · exact (List.mem_erase_of_ne hsame).2 List.mem_cons_self
      · rw [hs.options] at hfixed
        exact hfixed

theorem holdsPort_of_reaches (h : Session.Reaches s s') (hs : s.HoldsPort) : s'.HoldsPort :=
  h.invariant hs (fun _ _ huses hs => hs.of_uses huses) fun _ hs => hs.reconnect

/-- Whether the port is held decides on a reconnect whose dial is accepted on a connection. -/
structure PortDecides (s : NetworkSession) (c : Connection) (k : NetworkConnector) : Prop where
  /-- On the same local address a fixed port is held by the session itself. The reconnect fails
  and leaves all as it was, the port included. -/
  fixed : s.config.realtimePort ≠ 0 → c.near.ip = s.link.port.1 →
    s.reconnect.result = .error (.link (.io IoError.addressInUse.text)) ∧
      s.reconnect.session = { s with connector := k } ∧ k.host.bound = s.connector.host.bound
  /-- With a port that the host chooses, or that is not held on this address, the session goes over
  to the new link and gives the old port back. -/
  free : ∀ l', (s.config.realtimePort = 0 ∨
      (c.near.ip, s.config.realtimePort) ∉ s.connector.host.bound) →
    Agreed s.config.handshakeTimeout (c.link (c.portFor s.config.realtimePort)) l' →
      s.reconnect.result = .ok () ∧ s.reconnect.session.link = l' ∧
        s.reconnect.session.connector.host.bound =
          (l'.port :: s.connector.host.bound).erase s.link.port

theorem portDecides (hs : s.HoldsPort) (hreach : s.connector.reach s.address = (.ok (far, c), k)) :
    s.PortDecides c k := by
  obtain ⟨hbound, hoptions⟩ := NetworkConnector.kept_reach s.address s.connector
  rw [hreach] at hbound hoptions
  have hwanted : k.options.realtimePort = s.config.realtimePort := by
    rw [hoptions, hs.options]
    rfl
  have hconnect : Connector.connect s.address s.connector = k.openLink far c := by
    rw [NetworkConnector.connect_eq, hreach]
  constructor
  · intro hfixed hsame
    have hheld : k.PortHeld c.near.ip := by
      refine ⟨hwanted.symm ▸ hfixed, ?_⟩
      rw [hwanted, hbound, hsame, ← hs.fixed hfixed]
      exact hs.held
    rw [NetworkConnector.openLink_of_held hheld] at hconnect
    obtain ⟨hresult, hconnector⟩ := Opening.of_unlinked hconnect s.config
    obtain ⟨hfails, hsession⟩ := Session.reconnect_of_error hresult
    rw [hconnector] at hsession
    exact ⟨hfails, hsession, hbound⟩
  · intro l' hfree hagreed
    have hheld : ¬k.PortHeld c.near.ip := by
      rintro ⟨hfixed, hmem⟩
      rw [hwanted] at hfixed hmem
      rw [hbound] at hmem
      exact hfree.elim hfixed fun hnot => hnot hmem
    obtain ⟨k', hopen, -⟩ := NetworkConnector.openLink_of_free hheld far
    rw [hopen, hwanted] at hconnect
    obtain ⟨hresult, -⟩ := Opening.of_linked hconnect s.config
    obtain ⟨hagrees, hlink⟩ := negotiate_of_agreed hagreed
    rw [hagrees, hlink] at hresult
    obtain ⟨hdone, hsession⟩ := Session.reconnect_of_ok hresult
    obtain ⟨htaken, -, -⟩ := NetworkConnector.taken_of_opening_ok hresult
    rw [hsession]
    exact ⟨hdone, rfl, congrArg (List.erase · s.link.port) htaken⟩

/-- A session over the network can reconnect from the same local address if the host chooses the
port of its realtime channel, and if that port is fixed it cannot. -/
theorem reconnect_on_port {host : Host} {address : String} {config : Config}
    {scheduler : Scheduler} {s₀ : NetworkSession}
    (hconnect : (connectWith host address config scheduler).result = .ok s₀)
    (hreaches : Session.Reaches s₀ s)
    (hreach : s.connector.reach s.address = (.ok (far, c), k)) :
    s.config = config ∧ s.PortDecides c k := by
  obtain ⟨hs₀, hconfig⟩ := holdsPort_connectWith hconnect
  exact ⟨hreaches.config_eq.trans hconfig, portDecides (holdsPort_of_reaches hreaches hs₀) hreach⟩

def agreeing (freePort : UInt16) : Connection where
  near := ⟨.v4 127 0 0 1, 0, 40000⟩
  freePort
  inflow := ((Inflow.ofBytes? (frame ConnectResponse.agreement.encode)).map (⟨0, ·⟩)).toList
  writes := []
  incoming := []
  transmissions := []

def second : Connection := agreeing 40002

def agreeingHost : Host := { Host.isolated with dials := [.ok (agreeing 40001), .ok second] }

theorem agreed_second (port : UInt16) :
    ∃ l', Agreed Config.standard.handshakeTimeout (second.link port) l' :=
  ⟨_, _, ⟨_, rfl, rfl⟩, ConnectResponse.decode_encode _⟩

/-- The host chooses another port for the second link. -/
theorem reconnect_on_port_of_chosen_port :
    ∃ s k, (connectWith agreeingHost "127.0.0.1" .standard (.always (.ok ()))).result = .ok s ∧
      Session.Reaches s s ∧
      s.connector.reach s.address = (.ok (⟨.v4 127 0 0 1, 0, 1337⟩, second), k) ∧
      PortDecides s second k ∧ s.reconnect.result = .ok () := by
  obtain ⟨s, k, hconnect, hreach⟩ : ∃ s k,
      (connectWith agreeingHost "127.0.0.1" .standard (.always (.ok ()))).result = .ok s ∧
        s.connector.reach s.address = (.ok (⟨.v4 127 0 0 1, 0, 1337⟩, second), k) :=
    ⟨_, _, rfl, rfl⟩
  obtain ⟨hconfig, hdecides⟩ := reconnect_on_port hconnect (.none s) hreach
  obtain ⟨l', hagreed⟩ := agreed_second (second.portFor Config.standard.realtimePort)
  rw [← hconfig] at hagreed
  have hchosen : s.config.realtimePort = 0 := by rw [hconfig]; rfl
  exact ⟨s, k, hconnect, .none s, hreach, hdecides, (hdecides.free l' (.inl hchosen) hagreed).1⟩

def fixedPort : Config := { Config.standard with realtimePort := 50010 }

/-- The controller accepts again from the same address and would agree, and no one but the session
holds the port. -/
theorem fixed_port_prevents_reconnect : fixedPort.validate = .ok () ∧
    ∃ s k, (connectWith agreeingHost "127.0.0.1" fixedPort (.always (.ok ()))).result = .ok s ∧
      s.connector.host.bound = [s.link.port] ∧
      s.connector.reach s.address = (.ok (⟨.v4 127 0 0 1, 0, 1337⟩, second), k) ∧
      second.near.ip = s.link.port.1 ∧
      (∃ l', Agreed fixedPort.handshakeTimeout (second.link fixedPort.realtimePort) l') ∧
      s.reconnect.result = .error (.link (.io IoError.addressInUse.text)) :=
  ⟨rfl, _, _, rfl, by decide, rfl, by decide, agreed_second fixedPort.realtimePort, by decide⟩

end NetworkSession

end ArmSession
