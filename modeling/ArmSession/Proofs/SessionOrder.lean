import ArmSession.Session
import ArmSession.Proofs.CommandMessage
import ArmSession.Proofs.StateMessage
import ArmSession.Proofs.Stretch
import Mathlib.Data.List.Basic

/-!
# States over the calls of a session

The calls of a session take one stretch of the realtime queue after the other, so no arrival is
answered twice. A receiver is made for each call and only knows the states of that call. Hence
message ids are strictly increasing within a call, and over all calls when those of the arriving
states are; a call answers a state even if one with the same id was answered in a call before.
-/

namespace ArmSession

inductive LinkUse (ρ : Type)
  | control (mode : Mode) (motion torque : Option (Callback ρ))
  | read (goesOn : Predicate ρ)
  | readOnce

structure Used (κ σ ρ : Type) where
  result : Except Failure Unit
  session : Session κ σ
  user : ρ
  delivered : List RobotState

def Used.ofControl {κ σ ρ : Type} (o : Outcome κ σ ρ Unit) : Used κ σ ρ :=
  ⟨o.result, o.session, o.user, (o.events.filterMap Event.received?).map Prod.fst⟩

namespace Session

variable {κ σ ρ : Type} [Link σ]

def use (s : Session κ σ) (user : ρ) : LinkUse ρ → Used κ σ ρ
  | .control mode motion torque => .ofControl (s.control mode motion torque user)
  | .read goesOn =>
    let o := s.read goesOn user
    ⟨o.result, o.session, o.user, o.seen⟩
  | .readOnce =>
    let o := s.readOnce
    ⟨o.result.map fun _ => (), o.session, user, o.result.toOption.toList⟩

def uses (s : Session κ σ) (user : ρ) : List (LinkUse ρ) → List (Used κ σ ρ)
  | [] => []
  | call :: calls =>
    let used := s.use user call
    used :: uses used.session used.user calls

end Session

def ScriptedReply.state? : ScriptedReply → Option RobotState
  | .message m => (RobotState.decode m).toOption
  | _ => none

namespace ScriptedLink

def arrivals (l : ScriptedLink) : List RobotState := l.realtime.filterMap ScriptedReply.state?

def commands (l : ScriptedLink) : List RobotCommand :=
  (l.messages .realtime).filterMap fun m => (RobotCommand.decode m).toOption

theorem commands_of_sent {l l' : ScriptedLink} {commands : List RobotCommand}
    (h : l'.sent = l.sent ++ commands.map fun c => (.realtime, c.encode)) :
    l'.commands = l.commands ++ commands := by
  rw [ScriptedLink.commands, messages, h, List.filterMap_append, List.filterMap_append]
  congr 1
  simp [List.filterMap_map, RobotCommand.decode_encode, Except.toOption]

theorem arrivals_of_queue {l l' : ScriptedLink} {accepted : List Intake}
    {refused : List ScriptedReply}
    (hqueue : l.realtime = accepted.map (.message ·.message) ++ refused ++ l'.realtime)
    (hdecoded : ∀ x ∈ accepted, RobotState.decode x.message = .ok x.state) :
    ∃ between, l.arrivals = accepted.map (·.state) ++ between ++ l'.arrivals := by
  refine ⟨refused.filterMap ScriptedReply.state?, ?_⟩
  rw [arrivals, hqueue, List.filterMap_append, List.filterMap_append, List.filterMap_map]
  congr 2
  rw [← List.filterMap_eq_map]
  refine List.filterMap_congr ?_
  intro x hx
  simp [ScriptedReply.state?, hdecoded x hx, Except.toOption]

theorem ids_ofStates (states : List RobotState) :
    (ofStates states).arrivals.map (·.messageId) = states.map (·.messageId) := by
  induction states with
  | nil => rfl
  | cons s states ih =>
      have hstate : ScriptedReply.state? (.message s.encode) =
          some { s with time := .ofMicros s.time.micros } := by
        rw [ScriptedReply.state?, RobotState.decode_encode]
        rfl
      have hcons : (ofStates (s :: states)).arrivals =
          { s with time := .ofMicros s.time.micros } :: (ofStates states).arrivals :=
        List.filterMap_cons_some hstate
      rw [hcons, List.map_cons, ih, List.map_cons]

end ScriptedLink

/-- What one call has of the link: what it took from the realtime queue, and what it sent. -/
structure Share where
  accepted : List Intake
  refused : List ScriptedReply
  commands : List RobotCommand

def Share.taken (x : Share) : List ScriptedReply :=
  x.accepted.map (.message ·.message) ++ x.refused

variable {κ ρ : Type} {link link' : ScriptedLink} {used : Used κ ScriptedLink ρ} {x : Share}

structure Share.Of (link : ScriptedLink) (used : Used κ ScriptedLink ρ) (x : Share) : Prop where
  queue : link.realtime = x.taken ++ used.session.link.realtime
  short : x.refused.length ≤ 1
  decoded : ∀ y ∈ x.accepted, RobotState.decode y.message = .ok y.state
  delivered : used.delivered = x.accepted.map (·.state)
  sent : used.session.link.sent = link.sent ++ x.commands.map fun c => (.realtime, c.encode)
  /-- The first of the states that are delivered are answered, in order. -/
  answered : x.commands.map (·.messageId) <+: x.accepted.map (·.state.messageId)
  increasing : (x.accepted.map (·.state.messageId)).Pairwise (· < ·)
  /-- A state that is not accepted does not come after the last one that was delivered to this
  call, and the call fails for it. States delivered to calls before do not count. -/
  ordered : ∀ m state, .message m ∈ x.refused → RobotState.decode m = .ok state →
    ∃ y, x.accepted.getLast? = some y ∧ state.messageId ≤ y.state.messageId ∧
      used.result = .error (.outOfOrder state.messageId y.state.messageId)

inductive Shares : ScriptedLink → List (Used κ ScriptedLink ρ) → List Share → ScriptedLink → Prop
  | none (link : ScriptedLink) : Shares link [] [] link
  | more {link link' : ScriptedLink} {used : Used κ ScriptedLink ρ} {x : Share}
      {useds : List (Used κ ScriptedLink ρ)} {xs : List Share}
      (first : Share.Of link used x) (rest : Shares used.session.link useds xs link') :
      Shares link (used :: useds) (x :: xs) link'

theorem Share.of_stretch (timeout : Duration) {accepted : List Intake}
    {refused : List ScriptedReply} {commands : List RobotCommand}
    (hstretch : Stretch (.new timeout) link used.session.link used.result accepted refused)
    (hdelivered : used.delivered = accepted.map (·.state))
    (hsent : used.session.link.sent = link.sent ++ commands.map fun c => (.realtime, c.encode))
    (hanswered : commands.map (·.messageId) <+: accepted.map (·.state.messageId)) :
    Share.Of link used ⟨accepted, refused, commands⟩ := by
  obtain ⟨r, htakes, -⟩ := hstretch.taken
  exact ⟨hstretch.queue, hstretch.short, fun y hy => htakes.decode_message hy, hdelivered, hsent,
    hanswered, htakes.pairwise_ids, fun m state hm hs => hstretch.out_of_order hm hs⟩

theorem Share.of_unused (hlink : used.session.link = link) (hdelivered : used.delivered = []) :
    Share.Of link used ⟨[], [], []⟩ := by
  have hstretch : Stretch (.new .zero) link used.session.link used.result [] [] := by
    rw [hlink]
    exact .nil _ _ _
  refine Share.of_stretch .zero hstretch hdelivered ?_ List.nil_prefix
  rw [hlink]
  exact (List.append_nil _).symm

namespace Session

theorem exists_share_runLoop (s : Session κ ScriptedLink) {mode : Mode}
    {motion torque : Option (Callback ρ)} {timeout : Duration} {c : ControlLoop ρ}
    (hnew : ControlLoop.new mode motion torque timeout = .ok c) (user : ρ)
    (log : List Log.Line) : ∃ x, Share.Of s.link (.ofControl (s.runLoop c user log)) x := by
  obtain ⟨-, -, -, rfl⟩ := ControlLoop.new_eq_ok_iff.1 hnew
  let c : ControlLoop ρ := ⟨mode, motion, torque, .new timeout, .idle, 0⟩
  have hphase : c.phase.isTerminal = false := rfl
  obtain ⟨xs, hxs⟩ := ControlLoop.exists_course c s.link user
  obtain ⟨unanswered, refused, hstretch, -, hreceived⟩ := hxs.stretch
  have hids : xs.map (·.command.messageId) = xs.map (·.state.messageId) :=
    List.map_congr_left fun x hx => hxs.messageId_eq hx
  refine ⟨⟨xs.map Exchange.toIntake ++ unanswered, refused, xs.map (·.command)⟩,
    Share.of_stretch timeout ?_ ?_ ?_ ?_⟩
  · rw [Used.ofControl, runLoop, ControlLoop.run_eq hphase]
    exact hstretch
  · rw [Used.ofControl, runLoop]
    dsimp only
    rw [ControlLoop.filterMap_events_run hphase (fun _ => rfl) (fun _ => rfl) (fun _ _ _ => rfl)]
    exact hreceived
  · rw [Used.ofControl, runLoop, ControlLoop.run_eq hphase, List.map_map]
    exact hxs.sent_eq
  · rw [List.map_map, List.map_append, List.map_map]
    exact hids ▸ List.prefix_append _ _

theorem readOnce_delivers (s : Session κ ScriptedLink) : s.readOnce.result.toOption.toList =
    (s.read (fun state _ => (false, some state)) (none : Option RobotState)).seen := by
  unfold readOnce read readLoop
  cases hnext : (Receiver.new s.config.cycleTimeout).next s.link with
  | mk answer link =>
  cases answer with
  | error e =>
      rw [Reading.run_of_error hnext]
      rfl
  | ok accepted =>
      obtain ⟨state, period, r⟩ := accepted
      rw [Reading.run_of_ok hnext]
      rfl

theorem result_readOnce_of_error {s : Session κ ScriptedLink} {e : Failure}
    (h : (s.read (fun state _ => (false, some state)) (none : Option RobotState)).result =
      .error e) : s.readOnce.result = .error e := by
  rw [readOnce, h]

theorem exists_share (s : Session κ ScriptedLink) (user : ρ) (call : LinkUse ρ) :
    ∃ x, Share.Of s.link (s.use user call) x := by
  cases call with
  | control mode motion torque =>
      rw [use, control]
      cases hnew : ControlLoop.new mode motion torque s.config.cycleTimeout with
      | error e => exact ⟨_, Share.of_unused rfl rfl⟩
      | ok c =>
          cases mode.torque with
          | false => exact exists_share_runLoop s hnew user []
          | true =>
              let acquired := s.scheduler.acquire s.config.realtime
              cases hacquired : acquired.result with
              | error e =>
                  simp only [acquired] at hacquired
                  simp only [hacquired]
                  exact ⟨_, Share.of_unused rfl rfl⟩
              | ok _ =>
                  simp only [acquired] at hacquired
                  simp only [hacquired, if_true]
                  exact exists_share_runLoop { s with scheduler := acquired.scheduler } hnew user
                    acquired.log
  | read goesOn =>
      obtain ⟨accepted, refused, hstretch, hseen, hsent⟩ :=
        Reading.stretch goesOn (.new s.config.cycleTimeout) s.link user 0 rfl
      exact ⟨⟨accepted, refused, []⟩, Share.of_stretch _ hstretch hseen
        (hsent.trans (List.append_nil _).symm) List.nil_prefix⟩
  | readOnce =>
      obtain ⟨accepted, refused, hstretch, hseen, hsent⟩ :=
        Reading.stretch (fun state _ => (false, some state)) (.new s.config.cycleTimeout) s.link
          (none : Option RobotState) 0 rfl
      refine ⟨⟨accepted, refused, []⟩, Share.of_stretch _ (hstretch.of_result ?_)
        (s.readOnce_delivers.trans hseen) (hsent.trans (List.append_nil _).symm) List.nil_prefix⟩
      intro e he
      rw [use]
      dsimp only
      rw [result_readOnce_of_error he]
      rfl

theorem exists_shares (s : Session κ ScriptedLink) (user : ρ) (calls : List (LinkUse ρ)) :
    ∃ xs link', Shares s.link (s.uses user calls) xs link' := by
  induction calls generalizing s user with
  | nil => exact ⟨[], s.link, .none s.link⟩
  | cons call calls ih =>
      obtain ⟨x, hx⟩ := s.exists_share user call
      obtain ⟨xs, link', hxs⟩ := ih (s.use user call).session (s.use user call).user
      exact ⟨x :: xs, link', .more hx hxs⟩

end Session

namespace Shares

variable {useds : List (Used κ ScriptedLink ρ)} {xs : List Share}

theorem realtime_eq (h : Shares link useds xs link') :
    link.realtime = xs.flatMap Share.taken ++ link'.realtime := by
  induction h with
  | none => rfl
  | more first _ ih => rw [first.queue, ih, List.flatMap_cons, List.append_assoc]

theorem commands_eq (h : Shares link useds xs link') :
    link'.commands = link.commands ++ xs.flatMap Share.commands := by
  induction h with
  | none => simp
  | more first _ ih =>
      rw [ih, ScriptedLink.commands_of_sent first.sent, List.flatMap_cons, List.append_assoc]

/-- No arrival is answered twice, and arrivals are answered in order. -/
theorem ids_sublist (h : Shares link useds xs link') :
    ((xs.flatMap Share.commands).map (·.messageId)).Sublist
      (link.arrivals.map (·.messageId)) := by
  induction h with
  | none => exact List.nil_sublist _
  | more first _ ih =>
      obtain ⟨between, harrivals⟩ := ScriptedLink.arrivals_of_queue first.queue first.decoded
      rw [harrivals, List.flatMap_cons, List.map_append, List.map_append, List.map_append,
        List.map_map]
      refine List.Sublist.append ?_ ih
      exact first.answered.sublist.trans (List.sublist_append_left _ _)

end Shares

/-- A call whose first command finishes the motion. -/
theorem Session.use_control_of_exchanges {s : Session κ ScriptedLink} {mode : Mode}
    {motion torque : Option (Callback ρ)} {c : ControlLoop ρ} {user : ρ} {x : Exchange ρ}
    {receiver : Receiver} (hnew : ControlLoop.new mode motion torque s.config.cycleTimeout = .ok c)
    (htorque : mode.torque = false) (h : ControlLoop.Exchanges c s.link user x receiver link')
    (hfinal : x.command.finished = true) :
    (s.use user (.control mode motion torque)).result = .ok () ∧
      (s.use user (.control mode motion torque)).session = { s with link := link' } := by
  have hcycles := (ControlLoop.Course.finished h hfinal).cycles_eq
  have hphase : c.phase.isTerminal = false := by
    obtain ⟨-, -, -, rfl⟩ := ControlLoop.new_eq_ok_iff.1 hnew
    rfl
  have huse : s.use user (.control mode motion torque) = .ofControl (s.runLoop c user []) := by
    simp [use, control, hnew, htorque]
  rw [huse, Used.ofControl, runLoop, ControlLoop.run_eq hphase, hcycles]
  exact ⟨rfl, rfl⟩

/-- The calls of a session take the arrivals one after the other, each of them once, and each call
keeps the order of the states that are delivered to it. So the message ids of all commands are in
the order of the arrivals, and they are strictly increasing if the arrivals are. -/
theorem arrivals_answered_once (s : Session κ ScriptedLink) (user : ρ)
    (calls : List (LinkUse ρ)) : ∃ xs link', Shares s.link (s.uses user calls) xs link' ∧
      s.link.realtime = xs.flatMap Share.taken ++ link'.realtime ∧
      link'.commands = s.link.commands ++ xs.flatMap Share.commands ∧
      ((xs.flatMap Share.commands).map (·.messageId)).Sublist
        (s.link.arrivals.map (·.messageId)) ∧
      ((s.link.arrivals.map (·.messageId)).Pairwise (· < ·) →
        ((xs.flatMap Share.commands).map (·.messageId)).Pairwise (· < ·)) := by
  obtain ⟨xs, link', hxs⟩ := s.exists_shares user calls
  exact ⟨xs, link', hxs, hxs.realtime_eq, hxs.commands_eq, hxs.ids_sublist,
    fun hincreasing => hincreasing.sublist hxs.ids_sublist⟩

/-- A state is read, the next is answered, and the last is read again. -/
theorem arrivals_answered_once_of_increasing :
    let hold : Callback Nat := fun s _ n =>
      (.ofSetpoint .jointPosition (.asFinished (.ongoing s.jointPositions)), n + 1)
    let at' : UInt64 → RobotState := fun id => { RobotState.initial with messageId := id }
    let s : Session ScriptedConnector ScriptedLink :=
      ⟨.ofLinks [], "robot", .standard, .ofStates [at' 1, at' 2, at' 5], 2, .always (.ok ())⟩
    let calls : List (LinkUse Nat) :=
      [.readOnce, .control (.motionOnly .jointPosition) (some hold) none, .readOnce]
    (s.link.arrivals.map (·.messageId)).Pairwise (· < ·) ∧
      ∃ xs link', Shares s.link (s.uses 0 calls) xs link' ∧
        ((xs.flatMap Share.commands).map (·.messageId)).Pairwise (· < ·) := by
  intro hold at' s calls
  have hincreasing : (s.link.arrivals.map (·.messageId)).Pairwise (· < ·) := by
    rw [show s.link = .ofStates [at' 1, at' 2, at' 5] from rfl, ScriptedLink.ids_ofStates]
    decide
  obtain ⟨xs, link', hxs, -, -, -, hids⟩ := arrivals_answered_once s 0 calls
  exact ⟨hincreasing, xs, link', hxs, hids hincreasing⟩

/-- The same state arrives twice. Each of two calls answers it, and neither fails. -/
theorem duplicate_answered_by_next_call :
    let hold : Callback Unit := fun s _ u =>
      (.ofSetpoint .jointPosition (.asFinished (.ongoing s.jointPositions)), u)
    let state : RobotState := { RobotState.initial with messageId := 1 }
    let s : Session ScriptedConnector ScriptedLink :=
      ⟨.ofLinks [], "robot", .standard, .ofStates [state, state], 2, .always (.ok ())⟩
    let call : LinkUse Unit := .control (.motionOnly .jointPosition) (some hold) none
    let first := s.use () call
    let second := first.session.use first.user call
    s.uses () [call, call] = [first, second] ∧ s.link.commands = [] ∧
      first.result = .ok () ∧ second.result = .ok () ∧
      second.session.link.commands.map (·.messageId) = [1, 1] ∧
      ¬ (second.session.link.commands.map (·.messageId)).Pairwise (· < ·) := by
  intro hold state s call first second
  let c : ControlLoop Unit :=
    ⟨.motionOnly .jointPosition, some hold, none, .new (.ofMillis 100), .idle, 0⟩
  let x : Exchange Unit := ⟨⟨state.encode, state, .zero⟩, c.dispatch state .zero (),
    ⟨1, some ⟨.jointPosition, .asFinished (.ongoing state.jointPositions)⟩, none⟩⟩
  have hnew : ControlLoop.new (.motionOnly .jointPosition) (some hold) none
    (Config.cycleTimeout .standard) = .ok c := rfl
  have htime : Duration.ofMicros state.time.micros = state.time := by decide
  have hdecode : RobotState.decode x.message = .ok x.state := by
    rw [RobotState.decode_encode, htime]
  have htaken : c.receiver.take x.message =
      .ok (x.state, x.period, ⟨.ofMillis 100, some (1, .zero)⟩) :=
    Receiver.take_eq_ok_iff.2 ⟨hdecode, rfl⟩
  have hcombined : ControlLoop.combine c.mode x.state.messageId x.answers.motion
      x.answers.torque = .ok x.command := by decide
  let sent : Channel × Bytes := (.realtime, x.command.encode)
  let s₁ : Session ScriptedConnector ScriptedLink :=
    { s with link := { s.link with realtime := s.link.realtime.tail, sent := [sent] } }
  have hfirst : ControlLoop.Exchanges c s.link () x ⟨.ofMillis 100, some (1, .zero)⟩ s₁.link :=
    ControlLoop.exchanges_of_front? rfl (by decide) htaken rfl rfl hcombined
  let s₂ : Session ScriptedConnector ScriptedLink :=
    { s₁ with link := { s₁.link with realtime := [], sent := [sent, sent] } }
  have hsecond : ControlLoop.Exchanges c s₁.link () x ⟨.ofMillis 100, some (1, .zero)⟩ s₂.link :=
    ControlLoop.exchanges_of_front? rfl (by decide) htaken rfl rfl hcombined
  obtain ⟨hok₁, hsession₁⟩ : (s.use () call).result = .ok () ∧ (s.use () call).session = s₁ :=
    Session.use_control_of_exchanges hnew rfl hfirst rfl
  obtain ⟨hok₂, hsession₂⟩ : (s₁.use () call).result = .ok () ∧ (s₁.use () call).session = s₂ :=
    Session.use_control_of_exchanges hnew rfl hsecond rfl
  have hsame : second = s₁.use () call := congrArg (fun s => Session.use s () call) hsession₁
  have hids : second.session.link.commands.map (·.messageId) = [1, 1] := by
    have hsent : second.session.link.sent =
        s.link.sent ++ [x.command, x.command].map fun c => (.realtime, c.encode) := by
      rw [hsame, hsession₂, List.map_cons, List.map_cons, List.map_nil]
      rfl
    rw [ScriptedLink.commands_of_sent hsent]
    rfl
  refine ⟨rfl, rfl, hok₁, ?_, hids, ?_⟩
  · rw [hsame]
    exact hok₂
  · rw [hids]
    decide

end ArmSession
