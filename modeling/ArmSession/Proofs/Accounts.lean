import ArmSession.Proofs.Admission
import ArmSession.Proofs.Reconnecting
import Mathlib.Data.List.Forall2

/-!
# Accounts of the links of a session

A session holds one link at a time. The account of a link lists the calls that were made while the
session held it. From these the link can be told: its log is the request of the handshake and then
the commands of the calls, and its realtime queue was taken from the front, by one call after the
other. The links for which there are accounts are those that the connector has handed out.
-/

namespace ArmSession

theorem RobotCommand.encode_injective : Function.Injective RobotCommand.encode := by
  intro a b h
  have hdecode := RobotCommand.decode_encode a
  rw [h, RobotCommand.decode_encode] at hdecode
  exact (Except.ok.inj hdecode).symm

/-- A call, with the session and the caller's state that it finds. -/
structure Turn (ρ : Type) where
  session : Session ScriptedConnector ScriptedLink
  user : ρ
  call : LinkUse ρ

namespace Turn

variable {ρ : Type}

def outcome (t : Turn ρ) : Outcome ScriptedConnector ScriptedLink ρ (Option RobotState) :=
  t.session.call t.user t.call

def before (t : Turn ρ) : ScriptedLink := t.session.link

def after (t : Turn ρ) : ScriptedLink := t.outcome.session.link

def commands (t : Turn ρ) : List RobotCommand := t.outcome.events.filterMap Event.sent?

/-- The entries by which the realtime queue is shorter after the call. -/
def taken (t : Turn ρ) : List ScriptedReply :=
  t.before.realtime.take (t.before.realtime.length - t.after.realtime.length)

def Refused (t : Turn ρ) : Prop :=
  match t.call with
  | .control mode motion torque => mode.Misfit motion torque ∨ t.session.Unscheduled mode
  | _ => False

structure Accounted (t : Turn ρ) : Prop where
  share : ∃ x, Share.Of t.before (t.session.use t.user t.call) x ∧ x.taken = t.taken ∧
    x.commands = t.commands
  /-- Only control calls send anything. -/
  silent : (∀ mode motion torque, t.call ≠ .control mode motion torque) → t.commands = []
  refused : t.Refused → t.after = t.before ∧ t.commands = []

theorem session_use (s : Session ScriptedConnector ScriptedLink) (user : ρ) (call : LinkUse ρ) :
    (s.use user call).session = (s.call user call).session := by
  cases call with
  | control mode motion torque => rfl
  | read goesOn => rfl
  | readOnce => rfl

theorem unchanged_of_refused {t : Turn ρ} (h : t.Refused) :
    t.after = t.before ∧ t.commands = [] := by
  obtain ⟨s, user, call⟩ := t
  cases call with
  | control mode motion torque =>
      obtain ⟨-, hevents, hsession⟩ := (s.control_admission mode motion torque user).refused h
      exact ⟨(congrArg Session.link hsession :), congrArg (List.filterMap Event.sent?) hevents⟩
  | read goesOn => cases h
  | readOnce => cases h

theorem sent_after (t : Turn ρ) : t.after.sent =
    t.before.sent ++ t.commands.map fun command => (.realtime, command.encode) := by
  by_cases hrefused : t.Refused
  · obtain ⟨hlink, hcommands⟩ := unchanged_of_refused hrefused
    rw [hlink, hcommands, List.map_nil, List.append_nil]
  · obtain ⟨s, user, call⟩ := t
    cases call with
    | control mode motion torque =>
        obtain ⟨hfit, hgranted⟩ := not_or.1 hrefused
        have hadmission := s.control_admission mode motion torque user
        obtain ⟨c, hnew, -, -, hevents, hsession⟩ := hadmission.admitted hfit hgranted
        obtain ⟨-, -, -, rfl⟩ := ControlLoop.new_eq_ok_iff.1 hnew
        have hlink : (Turn.mk s user (.control mode motion torque)).after = _ :=
          congrArg Session.link hsession
        have hcommands : (Turn.mk s user (.control mode motion torque)).commands = _ :=
          congrArg (List.filterMap Event.sent?) hevents
        rw [hlink, hcommands]
        exact ControlLoop.sent_run rfl s.link user
    | read goesOn =>
        obtain ⟨-, -, -, -, hsent⟩ :=
          Reading.stretch goesOn (.new s.config.cycleTimeout) s.link user 0 rfl
        exact hsent.trans (List.append_nil _).symm
    | readOnce =>
        obtain ⟨-, -, -, -, hsent⟩ := Reading.stretch (fun state _ => (false, some state))
          (.new s.config.cycleTimeout) s.link (none : Option RobotState) 0 rfl
        exact hsent.trans (List.append_nil _).symm

theorem exists_share (t : Turn ρ) : ∃ x, Share.Of t.before (t.session.use t.user t.call) x ∧
    t.before.realtime = x.taken ++ t.after.realtime ∧ x.taken = t.taken ∧
      x.commands = t.commands := by
  obtain ⟨x, hx⟩ := t.session.exists_share t.user t.call
  have hafter : (t.session.use t.user t.call).session.link = t.after :=
    congrArg Session.link (session_use t.session t.user t.call)
  have hqueue := hx.queue
  have hsent := hx.sent
  rw [hafter] at hqueue hsent
  refine ⟨x, hx, hqueue, ?_, ?_⟩
  · unfold taken before
    rw [hqueue]
    simp
  · have hinjective : Function.Injective fun command : RobotCommand =>
        (Channel.realtime, command.encode) :=
      fun _ _ h => RobotCommand.encode_injective (Prod.mk.inj h).2
    exact List.map_injective_iff.2 hinjective
      (List.append_cancel_left (hsent.symm.trans t.sent_after))

/-- A call takes its entries off the front of the queue. -/
theorem queue (t : Turn ρ) : t.before.realtime = t.taken ++ t.after.realtime := by
  obtain ⟨x, -, hqueue, htaken, -⟩ := t.exists_share
  rwa [htaken] at hqueue

theorem accounted (t : Turn ρ) : t.Accounted := by
  refine ⟨?_, ?_, unchanged_of_refused⟩
  · obtain ⟨x, hx, -, htaken, hcommands⟩ := t.exists_share
    exact ⟨x, hx, htaken, hcommands⟩
  · intro hcall
    obtain ⟨s, user, call⟩ := t
    cases call with
    | control mode motion torque => exact absurd rfl (hcall mode motion torque)
    | read goesOn => rfl
    | readOnce => rfl

end Turn

/-- The request that a handshake gets onto the log of a link: none if the link does not take it. -/
def ScriptedLink.requested (l : ScriptedLink) : List (Channel × Bytes) :=
  match (send .service (ConnectRequest.on l).encode l).1 with
  | .ok _ => [(.service, (ConnectRequest.on l).encode)]
  | .error _ => []

theorem ScriptedLink.requested_of_error {l l' : ScriptedLink} {e : LinkError}
    (h : send .service (ConnectRequest.on l).encode l = (.error e, l')) : l.requested = [] := by
  unfold requested
  rw [h]

theorem ScriptedLink.requested_of_ok {l l' : ScriptedLink}
    (h : send .service (ConnectRequest.on l).encode l = (.ok (), l')) :
    l.requested = [(.service, (ConnectRequest.on l).encode)] := by
  unfold requested
  rw [h]

/-- A handshake sends its request and takes nothing from the realtime queue. -/
theorem ScriptedLink.negotiate_leaves (timeout : Duration) (l : ScriptedLink) :
    (negotiate timeout l).link.realtime = l.realtime ∧
      (negotiate timeout l).link.sent = l.sent ++ l.requested := by
  refine ⟨(asked_of_oneRequest (oneRequest_negotiate timeout l)).realtime, ?_⟩
  rcases oneRequest_negotiate timeout l with ⟨e, hsend⟩ | ⟨answer, between, hsend, hreceive⟩
  · obtain ⟨hlink, -⟩ := send_eq_error hsend
    rw [requested_of_error hsend, hlink, List.append_nil]
  · have hkept : (negotiate timeout l).link.sent = between.sent := sent_receive hreceive
    obtain ⟨-, -, hbetween⟩ := send_eq_ok_iff.1 hsend
    rw [requested_of_ok hsend, hkept, hbetween]

theorem ScriptedLink.requested_of_agreed {timeout : Duration} {l l' : ScriptedLink}
    (h : Agreed timeout l l') : l.requested ≠ [] := by
  obtain ⟨reply, ⟨between, hsend, -⟩, -⟩ := h
  rw [requested_of_ok hsend]
  exact List.cons_ne_nil _ _

/-- A link as it was handed out, and the calls that were made on it. -/
structure Account (ρ : Type) where
  opened : ScriptedLink
  turns : List (Turn ρ)

namespace Turn

variable {ρ : Type} {link left : ScriptedLink} {ts : List (Turn ρ)}

def Follow : ScriptedLink → List (Turn ρ) → ScriptedLink → Prop
  | link, [], left => left = link
  | link, t :: ts, left => t.before = link ∧ Follow t.after ts left

theorem Follow.append (h : Follow link ts left) {t : Turn ρ} (ht : t.before = left) :
    Follow link (ts ++ [t]) t.after := by
  induction ts generalizing link with
  | nil =>
      cases h
      exact ⟨ht, rfl⟩
  | cons first rest ih => exact ⟨h.1, ih h.2⟩

theorem Follow.realtime_eq (h : Follow link ts left) :
    link.realtime = ts.flatMap taken ++ left.realtime := by
  induction ts generalizing link with
  | nil =>
      cases h
      rfl
  | cons t ts ih =>
      obtain ⟨rfl, hrest⟩ := h
      rw [List.flatMap_cons, List.append_assoc, ← ih hrest]
      exact t.queue

theorem Follow.sent_eq (h : Follow link ts left) : left.sent =
    link.sent ++ (ts.flatMap commands).map fun command => (.realtime, command.encode) := by
  induction ts generalizing link with
  | nil =>
      cases h
      simp
  | cons t ts ih =>
      obtain ⟨rfl, hrest⟩ := h
      rw [ih hrest, t.sent_after, List.flatMap_cons, List.map_append, List.append_assoc]

end Turn

structure Account.Balances {ρ : Type} (timeout : Duration) (a : Account ρ) (left : ScriptedLink) :
    Prop where
  /-- The calls come after the handshake, on the link as that has left it. -/
  follow : Turn.Follow (negotiate timeout a.opened).link a.turns left
  /-- The log has the request before anything else, and then the commands of all calls. -/
  sent : left.sent = a.opened.sent ++ a.opened.requested ++
    (a.turns.flatMap Turn.commands).map fun command => (.realtime, command.encode)
  unrequested : a.opened.requested = [] → a.turns = []
  /-- The handshake takes nothing. Each call takes its entries from what the one before it left. -/
  realtime : (negotiate timeout a.opened).link.realtime = a.opened.realtime ∧
    a.opened.realtime = a.turns.flatMap Turn.taken ++ left.realtime
  accounted : ∀ t ∈ a.turns, t.Accounted

namespace Account

variable {ρ : Type} {timeout : Duration} {a : Account ρ} {left : ScriptedLink}

theorem balances_of_follow
    (h : Turn.Follow (negotiate timeout a.opened).link a.turns left)
    (hrequested : a.opened.requested = [] → a.turns = []) : a.Balances timeout left := by
  obtain ⟨hrealtime, hsent⟩ := ScriptedLink.negotiate_leaves timeout a.opened
  refine ⟨h, ?_, hrequested, ⟨hrealtime, ?_⟩, fun t _ => t.accounted⟩
  · rw [h.sent_eq, hsent]
  · rw [← hrealtime, h.realtime_eq]

theorem balances_opened (ρ : Type) (timeout : Duration) (opened : ScriptedLink) :
    Balances timeout (⟨opened, []⟩ : Account ρ) (negotiate timeout opened).link :=
  balances_of_follow rfl fun _ => rfl

theorem Balances.call (h : a.Balances timeout left) (hrequested : a.opened.requested ≠ [])
    {t : Turn ρ} (ht : t.before = left) :
    Balances timeout { a with turns := a.turns ++ [t] } t.after :=
  balances_of_follow (h.follow.append ht) fun hnone => absurd hnone hrequested

end Account

inductive Act (ρ : Type)
  | operation (operation : Operation ρ)
  | serverVersion

/-- The accounts of the links that were put away, in that order, and of the link that the session
holds. -/
structure Books (ρ : Type) where
  closed : List (Account ρ)
  current : Account ρ

def Books.opening (ρ : Type) (opened : ScriptedLink) : Books ρ := ⟨[], ⟨opened, []⟩⟩

section

variable {ρ : Type}

/-- The session and the caller's state after an act. Asking for the version of the server leaves
both as they are. -/
def Session.after (s : Session ScriptedConnector ScriptedLink) (user : ρ) :
    Act ρ → Session ScriptedConnector ScriptedLink × ρ
  | .operation operation =>
    let outcome := s.perform user operation
    (outcome.session, outcome.user)
  | .serverVersion => (s, user)

/-- A call is entered into the account of the link that the session holds. A reconnect is handed
out the next link of the connector, if there is one: either the session goes on with it and the old
link is put away, or it is put away itself. -/
def Books.enter (b : Books ρ) (s : Session ScriptedConnector ScriptedLink) (user : ρ) :
    Act ρ → Books ρ
  | .operation (.call call) =>
    { b with current := { b.current with turns := b.current.turns ++ [⟨s, user, call⟩] } }
  | .operation .reconnect =>
    match s.connector.links, s.reconnect.result with
    | [], _ => b
    | link :: _, .ok _ => ⟨b.closed ++ [b.current], ⟨link, []⟩⟩
    | link :: _, .error _ => { b with closed := b.closed ++ [⟨link, []⟩] }
  | .operation (.reschedule _) => b
  | .serverVersion => b

def Books.keep (b : Books ρ) (s : Session ScriptedConnector ScriptedLink) (user : ρ) :
    List (Act ρ) → Books ρ × Session ScriptedConnector ScriptedLink
  | [] => (b, s)
  | act :: acts =>
    let left := s.after user act
    (b.enter s user act).keep left.1 left.2 acts

/-- All links that were handed out between two states of a connector have accounts that balance:
those in `closed` came back, and those in `held` are in use. -/
structure Settled (timeout : Duration) (before after : ScriptedConnector)
    (closed : List (Account ρ)) (held : List (Account ρ × ScriptedLink)) : Prop where
  handed : ∃ handed, before.links = handed ++ after.links ∧
    (closed.map Account.opened ++ held.map (·.1.opened)).Perm handed
  closed : ∃ lefts, after.released = before.released ++ lefts ∧
    List.Forall₂ (Account.Balances timeout) closed lefts
  held : ∀ a ∈ held, a.1.Balances timeout a.2 ∧ a.1.opened.requested ≠ []

namespace Settled

variable {timeout : Duration} {k k₁ k₂ : ScriptedConnector} {closed : List (Account ρ)}
  {held held' : List (Account ρ × ScriptedLink)}

/-- One more link is handed out, and one is put away. -/
theorem more (h : Settled timeout k k₁ closed held) {link left : ScriptedLink} {a : Account ρ}
    (hlinks : k₁.links = link :: k₂.links) (hreleased : k₂.released = k₁.released ++ [left])
    (hleft : a.Balances timeout left)
    (hopened : (closed.map Account.opened ++ (a.opened :: held'.map (·.1.opened))).Perm
      (closed.map Account.opened ++ held.map (·.1.opened) ++ [link]))
    (hheld : ∀ a ∈ held', a.1.Balances timeout a.2 ∧ a.1.opened.requested ≠ []) :
    Settled timeout k k₂ (closed ++ [a]) held' := by
  obtain ⟨handed, hhanded, hperm⟩ := h.handed
  obtain ⟨lefts, hlefts, hclosed⟩ := h.closed
  refine ⟨⟨handed ++ [link], ?_, ?_⟩, ⟨lefts ++ [left], ?_, ?_⟩, hheld⟩
  · rw [hhanded, hlinks, List.append_assoc]
    rfl
  · rw [List.map_append, List.append_assoc]
    exact hopened.trans (hperm.append_right [link])
  · rw [hreleased, hlefts, List.append_assoc]
  · exact List.rel_append hclosed (.cons hleft .nil)

end Settled

/-- The account of a link on which the controller has just agreed. -/
theorem held_of_agreed {timeout : Duration} {link link' : ScriptedLink}
    (h : Agreed timeout link link') : ∀ a ∈ [((⟨link, []⟩ : Account ρ), link')],
      a.1.Balances timeout a.2 ∧ a.1.opened.requested ≠ [] := by
  intro a ha
  cases List.mem_singleton.1 ha
  refine ⟨?_, ScriptedLink.requested_of_agreed h⟩
  rw [← (negotiate_of_agreed h).2]
  exact Account.balances_opened ρ timeout link

namespace Session

variable {s : Session ScriptedConnector ScriptedLink} {k : ScriptedConnector} {b : Books ρ}

def Booked (s : Session ScriptedConnector ScriptedLink) (k : ScriptedConnector) (b : Books ρ) :
    Prop :=
  Settled s.config.handshakeTimeout k s.connector b.closed [(b.current, s.link)]

theorem Booked.call (h : s.Booked k b) (user : ρ) (call : LinkUse ρ) :
    (s.call user call).session.Booked k (b.enter s user (.operation (.call call))) := by
  let t : Turn ρ := ⟨s, user, call⟩
  obtain ⟨hcurrent, hrequested⟩ := h.held _ List.mem_cons_self
  have hbalances : Account.Balances s.config.handshakeTimeout
      { b.current with turns := b.current.turns ++ [t] } t.after := hcurrent.call hrequested rfl
  obtain ⟨link, scheduler, hsession, -⟩ := s.uses_call user call
  have hlink : t.after = link := congrArg Session.link hsession
  rw [hlink] at hbalances
  rw [hsession]
  refine ⟨h.handed, h.closed, ?_⟩
  intro a ha
  cases List.mem_singleton.1 ha
  exact ⟨hbalances, hrequested⟩

theorem Booked.reconnect (h : s.Booked k b) (user : ρ) :
    s.reconnect.session.Booked k (b.enter s user (.operation .reconnect)) := by
  cases hresult : s.reconnect.result with
  | error e =>
      have hsession := (kept_of_error hresult).session
      cases hlinks : s.connector.links with
      | nil =>
          have henter : b.enter s user (.operation .reconnect) = b := by
            simp only [Books.enter, hlinks]
          rw [henter, hsession, hlinks]
          obtain ⟨handed, hhanded, hperm⟩ := h.handed
          obtain ⟨lefts, hlefts, hclosed⟩ := h.closed
          refine ⟨⟨handed, ?_, hperm⟩, ⟨lefts, ?_, hclosed⟩, h.held⟩
          · rw [hhanded, hlinks]
            rfl
          · rw [hlefts]
            exact List.append_nil _
      | cons link rest =>
          have henter : b.enter s user (.operation .reconnect) =
              { b with closed := b.closed ++ [⟨link, []⟩] } := by
            simp only [Books.enter, hlinks, hresult]
          rw [henter, hsession, hlinks]
          -- The link that was tried comes back at once, while the one in use stays.
          refine h.more hlinks rfl (Account.balances_opened ρ _ link) ?_ h.held
          rw [List.append_assoc]
          exact (List.perm_append_singleton link _).symm.append_left _
  | ok _ =>
      obtain ⟨link, rest, link', hlinks, hagreed, hsession⟩ := (replaced_of_ok hresult).session
      have henter : b.enter s user (.operation .reconnect) =
          ⟨b.closed ++ [b.current], ⟨link, []⟩⟩ := by
        simp only [Books.enter, hlinks, hresult]
      rw [henter, hsession]
      refine h.more hlinks rfl (h.held _ List.mem_cons_self).1 ?_ ?_
      · rw [List.append_assoc]
        rfl
      · exact held_of_agreed hagreed

theorem Booked.after (h : s.Booked k b) (user : ρ) (act : Act ρ) :
    (s.after user act).1.Booked k (b.enter s user act) := by
  cases act with
  | operation operation =>
      cases operation with
      | call call => exact h.call user call
      | reconnect => exact h.reconnect user
      | reschedule scheduler => exact h
  | serverVersion => exact h

theorem config_after (s : Session ScriptedConnector ScriptedLink) (user : ρ) (act : Act ρ) :
    (s.after user act).1.config = s.config := by
  cases act with
  | operation operation => exact (Reaches.more user operation (.none _)).config_eq
  | serverVersion => rfl

theorem Booked.keep (h : s.Booked k b) (user : ρ) (acts : List (Act ρ)) :
    (b.keep s user acts).2.Booked k (b.keep s user acts).1 ∧
      (b.keep s user acts).2.config = s.config := by
  induction acts generalizing s user b with
  | nil => exact ⟨h, rfl⟩
  | cons act acts ih =>
      obtain ⟨hbooked, hconfig⟩ := ih (h.after user act) (s.after user act).2
      exact ⟨hbooked, hconfig.trans (s.config_after user act)⟩

variable {address : String} {config : Config} {scheduler : Scheduler}

theorem connector_connect (h : config.HasTimeouts) :
    (Session.connect k address config scheduler).connector =
      (Opening.of k address config).connector := by
  unfold connect
  rw [config.validate_eq_ok_iff.2 h]
  dsimp only
  cases (Opening.of k address config).result with
  | error e => rfl
  | ok opened => rfl

theorem opening_of_connect (h : config.HasTimeouts) {e : Failure}
    (he : (Session.connect k address config scheduler).result = .error e) :
    (Opening.of k address config).result = .error e := by
  rw [connect_of_valid h] at he
  cases hopening : (Opening.of k address config).result with
  | error cause =>
      rw [hopening] at he
      cases he
      rfl
  | ok opened =>
      rw [hopening] at he
      cases he

/-- When connecting fails, a link that was handed out for it is put away at once. -/
theorem settled_of_connect_error (ρ : Type) {e : Failure}
    (he : (Session.connect k address config scheduler).result = .error e) :
    ∃ closed : List (Account ρ), Settled config.handshakeTimeout k
        (Session.connect k address config scheduler).connector closed [] ∧
      closed.length ≤ 1 ∧ ∀ a ∈ closed, a.turns = [] := by
  have hnothing : ∀ k' : ScriptedConnector, k'.links = k.links → k'.released = k.released →
      Settled (ρ := ρ) config.handshakeTimeout k k' [] [] := by
    intro k' hlinks hreleased
    exact ⟨⟨[], hlinks.symm, .nil⟩, ⟨[], by rw [hreleased, List.append_nil], .nil⟩, by simp⟩
  by_cases hvalid : config.HasTimeouts
  · have hconnector := ScriptedConnector.connector_of_opening_error (opening_of_connect hvalid he)
    rw [connector_connect hvalid, hconnector]
    cases hlinks : k.links with
    | nil => exact ⟨[], hnothing _ hlinks.symm (List.append_nil _), by simp, by simp⟩
    | cons link rest =>
        refine ⟨[⟨link, []⟩], (hnothing k rfl rfl).more hlinks rfl
          (Account.balances_opened ρ _ link) (.refl _) (by simp), by simp, by simp⟩
  · obtain ⟨cause, hconnect⟩ := connect_of_invalid hvalid k address scheduler
    rw [hconnect]
    exact ⟨[], hnothing k rfl rfl, by simp, by simp⟩

theorem booked_of_connect (ρ : Type)
    (h : (Session.connect k address config scheduler).result = .ok s) : s.config = config ∧
    ∃ opened rest, k.links = opened :: rest ∧ s.Booked k (Books.opening ρ opened) := by
  obtain ⟨-, ⟨link', version⟩, hopening, rfl⟩ := opened_of_connect h
  obtain ⟨-, link, rest, hlinks, hagreed, hconnector⟩ :=
    ScriptedConnector.connector_of_opening_ok hopening
  refine ⟨rfl, link, rest, hlinks, ⟨[link], ?_, .refl _⟩, ⟨[], ?_, .nil⟩, held_of_agreed hagreed⟩
  · rw [hconnector]
    exact hlinks
  · rw [hconnector]
    exact (List.append_nil _).symm

/-- Whatever is done with a session, every link that its connector has handed out is as its account
says. -/
theorem links_accounted (k : ScriptedConnector) (address : String) (config : Config)
    (scheduler : Scheduler) (user : ρ) (acts : List (Act ρ)) :
    let connecting := Session.connect k address config scheduler
    (∀ e, connecting.result = .error e → ∃ closed : List (Account ρ),
      Settled config.handshakeTimeout k connecting.connector closed [] ∧ closed.length ≤ 1 ∧
        ∀ a ∈ closed, a.turns = []) ∧
    ∀ s, connecting.result = .ok s → ∃ opened rest, k.links = opened :: rest ∧
      let kept := (Books.opening ρ opened).keep s user acts
      Settled config.handshakeTimeout k kept.2.connector kept.1.closed
        [(kept.1.current, kept.2.link)] := by
  intro connecting
  refine ⟨fun e he => settled_of_connect_error ρ he, fun s hs => ?_⟩
  obtain ⟨hconfig, opened, rest, hlinks, hbooked⟩ := booked_of_connect ρ hs
  obtain ⟨hkept, hsame⟩ := hbooked.keep user acts
  refine ⟨opened, rest, hlinks, ?_⟩
  rw [← hconfig, ← hsame]
  exact hkept

end Session

end

/-- A state is read from the first link and the next is answered. Then the controller agrees on the
second link, where the version is asked for. -/
theorem Session.links_accounted_of_reconnect :
    let agreeing (states : List RobotState) : ScriptedLink := { ScriptedLink.ofStates states with
      service := [.message ConnectResponse.agreement.encode] }
    let at' : UInt64 → RobotState := fun id => { RobotState.initial with messageId := id }
    let k : ScriptedConnector := .ofLinks [agreeing [at' 1, at' 2, at' 3], agreeing [at' 1]]
    let hold : Callback Nat := fun s _ n =>
      (.ofSetpoint .jointPosition (.asFinished (.ongoing s.jointPositions)), n + 1)
    let acts : List (Act Nat) := [.operation (.call .readOnce),
      .operation (.call (.control (.motionOnly .jointPosition) (some hold) none)),
      .operation .reconnect, .serverVersion]
    ∃ s, (Session.connect k "robot" .standard (.always (.ok ()))).result = .ok s ∧
      ∃ opened rest, k.links = opened :: rest ∧
        let kept := (Books.opening Nat opened).keep s 0 acts
        Settled Config.standard.handshakeTimeout k kept.2.connector kept.1.closed
          [(kept.1.current, kept.2.link)] := by
  intro agreeing at' k hold acts
  have h := Session.links_accounted k "robot" .standard (.always (.ok ())) 0 acts
  exact ⟨_, rfl, h.2 _ rfl⟩

end ArmSession
