import ArmSession.Proofs.Establishment

/-!
# Reconnecting

A reconnect that fails takes a link from the connector, if there is one left, and nothing else
tells that it was made: what the session does until the next reconnect is the same as without it.
A reconnect that succeeds puts the old link away, where it stays as it is, and what the session
does from then on does not depend on it.
-/

namespace ArmSession

namespace ScriptedConnector

variable {k : ScriptedConnector} {address : String} {config : Config}

/-- Puts links before those that came back. -/
def behind (earlier : List ScriptedLink) (k : ScriptedConnector) : ScriptedConnector :=
  { k with released := earlier ++ k.released }

def forget (k : ScriptedConnector) : ScriptedConnector := { k with released := [] }

theorem respects_behind (earlier : List ScriptedLink) :
    Connector.Respects ScriptedLink (behind earlier) := by
  constructor
  · intro address k
    change connect address (behind earlier k) =
      ((connect address k).1, behind earlier (connect address k).2)
    unfold connect behind
    dsimp only
    cases k.links with
    | nil => rfl
    | cons link rest => rfl
  · intro link k
    change release link (behind earlier k) = behind earlier (release link k)
    unfold release behind
    rw [List.append_assoc]

theorem connect_of_cons {link : ScriptedLink} {rest : List ScriptedLink}
    (h : k.links = link :: rest) (address : String) : Connector.connect address k =
      (Except.ok link, { k with links := rest, addresses := k.addresses ++ [address] }) := by
  change connect address k = _
  unfold connect
  rw [h]

/-- An opening that fails has used up the next link. -/
theorem connector_of_opening_error {e : Failure}
    (h : (Opening.of k address config).result = .error e) :
    (Opening.of k address config).connector = ⟨k.links.tail, k.addresses ++ [address],
      k.released ++ (k.links.head?.map (negotiate config.handshakeTimeout · |>.link)).toList⟩ := by
  cases hlinks : k.links with
  | nil =>
      have hconnect : Connector.connect address k =
          ((.error (.io ("no scripted transport left for " ++ address)) :
            Except LinkError ScriptedLink), { k with addresses := k.addresses ++ [address] }) := by
        change connect address k = _
        unfold connect
        rw [hlinks]
      rw [(Opening.of_unlinked hconnect config).2]
      simp [hlinks]
  | cons link rest =>
      obtain ⟨hresult, hconnector⟩ := Opening.of_linked (connect_of_cons hlinks address) config
      rw [hconnector]
      cases hnegotiate : (negotiate config.handshakeTimeout link).result with
      | error e => rfl
      | ok version =>
          rw [h, hnegotiate] at hresult
          cases hresult

theorem connector_of_opening_ok {link' : ScriptedLink} {version : UInt16}
    (h : (Opening.of k address config).result = .ok (link', version)) :
    version = protocolVersion ∧ ∃ link rest, k.links = link :: rest ∧
      Agreed config.handshakeTimeout link link' ∧
      (Opening.of k address config).connector =
        { k with links := rest, addresses := k.addresses ++ [address] } := by
  obtain ⟨hversion, opened, left, hagreed, hconnect⟩ := Opening.agreed h
  refine ⟨hversion, ?_⟩
  cases hlinks : k.links with
  | nil =>
      change connect address k = _ at hconnect
      unfold connect at hconnect
      rw [hlinks] at hconnect
      cases hconnect
  | cons link rest =>
      cases (connect_of_cons hlinks address).symm.trans hconnect
      obtain ⟨-, hconnector⟩ := Opening.of_linked hconnect config
      rw [(negotiate_of_agreed hagreed).1] at hconnector
      exact ⟨_, rest, rfl, hagreed, hconnector⟩

theorem opening_of_agreed {link link' : ScriptedLink} {rest : List ScriptedLink}
    (hlinks : k.links = link :: rest) (h : Agreed config.handshakeTimeout link link') :
    (Opening.of k address config).result = .ok (link', protocolVersion) := by
  obtain ⟨hresult, -⟩ := Opening.of_linked (connect_of_cons hlinks address) config
  obtain ⟨hagrees, hlink⟩ := negotiate_of_agreed h
  rw [hresult, hagrees, hlink]
  rfl

end ScriptedConnector

namespace Session

open ScriptedConnector

variable {s : Session ScriptedConnector ScriptedLink}

structure Kept (s : Session ScriptedConnector ScriptedLink) : Prop where
  /-- The connector has lost the next link, if there was one. -/
  session : s.reconnect.session = { s with
    connector := ⟨s.connector.links.tail, s.connector.addresses ++ [s.address],
      s.connector.released ++
        (s.connector.links.head?.map (negotiate s.config.handshakeTimeout · |>.link)).toList⟩ }
  /-- Until the next reconnect all is as if this one had not been made, but for the connector. -/
  following : ∀ {ρ : Type} (user : ρ) (operations : List (Operation ρ)),
    (∀ operation ∈ operations, operation.reconnects = false) →
      s.reconnect.session.performs user operations =
        (s.performs user operations).map
          (Outcome.mapConnector fun _ => s.reconnect.session.connector)

structure Replaced (s : Session ScriptedConnector ScriptedLink) : Prop where
  session : ∃ link rest link', s.connector.links = link :: rest ∧
    Agreed s.config.handshakeTimeout link link' ∧ s.reconnect.session = { s with
      connector := ⟨rest, s.connector.addresses ++ [s.address], s.connector.released ++ [s.link]⟩
      link := link'
      serverVersion := protocolVersion }
  /-- The old link stays as it is. -/
  untouched : ∀ {ρ : Type} (user : ρ) (operations : List (Operation ρ)),
    ∀ outcome ∈ s.reconnect.session.performs user operations,
      s.connector.released ++ [s.link] <+: outcome.session.connector.released
  /-- With any other link in its place the same would follow. -/
  independent : ∀ (other : ScriptedLink) {ρ : Type} (user : ρ) (operations : List (Operation ρ)),
    (s.reconnect.session.performs user operations).map (Outcome.mapConnector forget) =
      (({ s with link := other } : Session _ _).reconnect.session.performs user operations).map
        (Outcome.mapConnector forget)

theorem kept_of_error {e : Failure} (h : s.reconnect.result = .error e) : s.Kept := by
  cases hopening : (Opening.of s.connector s.address s.config).result with
  | ok opened =>
      rw [(reconnect_of_ok hopening).1] at h
      cases h
  | error cause =>
      have hsession := (reconnect_of_error hopening).2
      refine ⟨?_, ?_⟩
      · rw [hsession, connector_of_opening_error hopening]
      · intro ρ user operations hcalls
        have hmapped : s.reconnect.session =
            s.mapConnector fun _ => s.reconnect.session.connector := by
          rw [hsession]
          rfl
        rw [hmapped]
        exact performs_mapConnector (fun operation hmem s user =>
          s.perform_mapConnector_of_uses _ user (hcalls operation hmem)) s user

/-- The session that a reconnect makes out of the next link, before the old one is put away. -/
def renewed (s : Session ScriptedConnector ScriptedLink) (rest : List ScriptedLink)
    (link : ScriptedLink) : Session ScriptedConnector ScriptedLink :=
  { s with
    connector := ⟨rest, s.connector.addresses ++ [s.address], []⟩
    link
    serverVersion := protocolVersion }

theorem reconnect_eq_renewed {link' : ScriptedLink} {version : UInt16}
    (h : (Opening.of s.connector s.address s.config).result = .ok (link', version)) :
    ∃ link rest, s.connector.links = link :: rest ∧
      Agreed s.config.handshakeTimeout link link' ∧ s.reconnect.session =
        (s.renewed rest link').mapConnector (behind (s.connector.released ++ [s.link])) := by
  obtain ⟨rfl, link, rest, hlinks, hagreed, hconnector⟩ := connector_of_opening_ok h
  refine ⟨link, rest, hlinks, hagreed, ?_⟩
  rw [(reconnect_of_ok h).2, hconnector]
  have happend : behind (s.connector.released ++ [s.link])
      ⟨rest, s.connector.addresses ++ [s.address], []⟩ =
        ⟨rest, s.connector.addresses ++ [s.address], s.connector.released ++ [s.link]⟩ := by
    simp [behind]
  unfold mapConnector renewed
  rw [happend]
  rfl

theorem performs_behind (earlier : List ScriptedLink) {ρ : Type} (user : ρ)
    (operations : List (Operation ρ)) : (s.mapConnector (behind earlier)).performs user operations =
      (s.performs user operations).map (Outcome.mapConnector (behind earlier)) :=
  performs_mapConnector (fun operation _ s user =>
    s.perform_mapConnector (respects_behind earlier) user operation) s user

theorem replaced_of_ok (h : s.reconnect.result = .ok ()) : s.Replaced := by
  cases hopening : (Opening.of s.connector s.address s.config).result with
  | error cause =>
      rw [(reconnect_of_error hopening).1] at h
      cases h
  | ok opened =>
      obtain ⟨link', version⟩ := opened
      obtain ⟨link, rest, hlinks, hagreed, hsession⟩ := reconnect_eq_renewed hopening
      refine ⟨⟨link, rest, link', hlinks, hagreed, ?_⟩, ?_, ?_⟩
      · rw [hsession]
        simp [mapConnector, renewed, behind]
      · intro ρ user operations outcome hmem
        rw [hsession, performs_behind] at hmem
        obtain ⟨o, -, rfl⟩ := List.mem_map.1 hmem
        exact List.prefix_append _ _
      · intro other ρ user operations
        obtain ⟨link₂, rest₂, hlinks₂, -, hsession₂⟩ :=
          reconnect_eq_renewed (s := { s with link := other }) hopening
        cases hlinks.symm.trans hlinks₂
        rw [hsession, hsession₂, performs_behind, performs_behind, List.map_map, List.map_map]
        rfl

theorem reconnect_succeeds_iff : s.reconnect.result = .ok () ↔
    ∃ link rest link', s.connector.links = link :: rest ∧
      Agreed s.config.handshakeTimeout link link' := by
  constructor
  · intro h
    obtain ⟨link, rest, link', hlinks, hagreed, -⟩ := (replaced_of_ok h).session
    exact ⟨link, rest, link', hlinks, hagreed⟩
  · rintro ⟨link, rest, link', hlinks, hagreed⟩
    exact (reconnect_of_ok (opening_of_agreed hlinks hagreed)).1

/-- A reconnect succeeds when the controller agrees on the next link. If it fails it cannot be told
from none by what follows, and if it succeeds the session is one of the new link alone. -/
theorem reconnect_keeps_or_replaces (s : Session ScriptedConnector ScriptedLink) :
    (s.reconnect.result = .ok () ↔ ∃ link rest link', s.connector.links = link :: rest ∧
      Agreed s.config.handshakeTimeout link link') ∧
    (∀ e, s.reconnect.result = .error e → s.Kept) ∧ (s.reconnect.result = .ok () → s.Replaced) :=
  ⟨reconnect_succeeds_iff, fun _ h => kept_of_error h, replaced_of_ok⟩

/-- The next link is refused for its version, and the one behind it is taken. -/
theorem reconnect_keeps_or_replaces_of_versions :
    let answering (response : ConnectResponse) : ScriptedLink :=
      { ScriptedLink.fresh with service := [.message response.encode] }
    let connector : ScriptedConnector := .ofLinks [answering ⟨.success, 3⟩, answering .agreement]
    let s : Session ScriptedConnector ScriptedLink :=
      ⟨connector, "robot", .standard, .fresh, protocolVersion, .always (.ok ())⟩
    s.reconnect.result = .error (.incompatibleVersion protocolVersion 3) ∧ s.Kept ∧
      s.reconnect.session.reconnect.result = .ok () ∧ s.reconnect.session.Replaced := by
  intro answering connector s
  have hrefused : s.reconnect.result = .error (.incompatibleVersion protocolVersion 3) := rfl
  have htaken : s.reconnect.session.reconnect.result = .ok () := rfl
  exact ⟨hrefused, s.reconnect_keeps_or_replaces.2.1 _ hrefused, htaken,
    s.reconnect.session.reconnect_keeps_or_replaces.2.2 htaken⟩

end Session

end ArmSession
