import ArmSession.Proofs.FirstFailure
import ArmSession.Proofs.Stretch
import ArmSession.Proofs.Traced

/-!
# Control and reading take the same states

What is heard on a scripted link does not depend on what is sent. So a control loop and a read that
begin on the same link are shown the same states and end alike, if the predicate of the read has
had enough exactly when a command finishes the motion. They part only at a fault: the control loop
fails on it, and the read goes on from where the control loop leaves the link.
-/

namespace ArmSession

namespace ScriptedLink

variable {l l' : ScriptedLink}

/-- The link `base`, on which as much is left to be heard as on `l`. -/
def hearing (base l : ScriptedLink) : ScriptedLink :=
  { base with realtime := l.realtime, closed := l.closed }

theorem receive_hearing (base : ScriptedLink) {timeout : Duration}
    {answer : Except LinkError Bytes} (h : Link.receive .realtime timeout l = (answer, l')) :
    Link.receive .realtime timeout (base.hearing l) = (answer, base.hearing l') := by
  obtain ⟨service, realtime, sent, budget, closed, port⟩ := l
  cases closed with
  | true => cases h; rfl
  | false =>
      cases realtime with
      | nil => cases h; rfl
      | cons reply rest => cases reply <;> cases h <;> rfl

theorem hearing_of_send (base : ScriptedLink) {c : Channel} {m : Bytes}
    {answer : Except LinkError Unit} (h : send c m l = (answer, l')) :
    base.hearing l' = base.hearing l := by
  cases answer with
  | ok _ =>
      obtain ⟨-, -, rfl⟩ := send_eq_ok_iff.1 h
      rfl
  | error e => rw [(send_eq_error h).1]

/-- The sends of the link do not fail before its realtime queue is used up. -/
def Spares (l : ScriptedLink) : Prop := ∀ left, l.budget = some left → l.realtime.length ≤ left

end ScriptedLink

theorem Receiver.next_hearing (base : ScriptedLink) {r : Receiver} {l l' : ScriptedLink}
    {answer : Except Failure (RobotState × Duration × Receiver)} (h : r.next l = (answer, l')) :
    r.next (base.hearing l) = (answer, base.hearing l') := by
  cases hreceive : Link.receive .realtime r.timeout l with
  | mk heard between =>
  have hheard := ScriptedLink.receive_hearing base hreceive
  cases heard with
  | error e =>
      rw [next_of_receive_error hreceive] at h
      cases h
      exact next_of_receive_error hheard
  | ok m =>
      rw [next_of_receive_ok hreceive] at h
      cases h
      exact next_of_receive_ok hheard

section

variable {ρ τ : Type}

/-- Whatever it is asked, the callback answers with finite values of this kind. -/
def Callback.Gives (kind : CommandKind) (callback : Callback ρ) : Prop :=
  ∀ s period user,
    (callback s period user).1.kind = kind ∧ (callback s period user).1.isFinite = true

namespace ControlLoop

structure AnswersWell (c : ControlLoop ρ) : Prop where
  motion : ∀ callback, c.motion = some callback →
    ∃ kind, c.mode.expectedMotion = some kind ∧ callback.Gives kind
  torque : ∀ callback, c.torque = some callback → callback.Gives .torques

def callback (c : ControlLoop ρ) : Slot → Option (Callback ρ)
  | .motion => c.motion
  | .torque => c.torque

theorem AnswersWell.exists_combine_eq_ok {c : ControlLoop ρ} (h : c.AnswersWell) (s : RobotState)
    (period : Duration) (user : ρ) : ∃ command, combine c.mode s.messageId
      (c.dispatch s period user).motion (c.dispatch s period user).torque = .ok command := by
  rw [dispatch_motion, dispatch_torque]
  have hmotion : ∃ part,
      motionPart c.mode (c.motion.map fun f => (f s period user).1) = .ok part := by
    cases hc : c.motion with
    | none => exact ⟨none, motionPart_none⟩
    | some f =>
        obtain ⟨kind, hkind, hgives⟩ := h.motion f hc
        obtain ⟨k, hk, rfl⟩ := Option.map_eq_some_iff.1 hkind
        rw [Option.map_some, motionPart_of_expected hk,
          checkCommand_eq_ok_iff.2 (hgives s period user)]
        exact ⟨_, rfl⟩
  have htorque : ∀ asking, ∃ part,
      torquePart c.mode (c.torque.map fun f => (f s period asking).1) = .ok part := by
    intro asking
    cases hc : c.torque with
    | none => exact ⟨none, rfl⟩
    | some f =>
        rw [Option.map_some, torquePart_some,
          checkCommand_eq_ok_iff.2 (h.torque f hc s period asking)]
        exact ⟨_, rfl⟩
  obtain ⟨motion, hmotion⟩ := hmotion
  obtain ⟨torques, htorque⟩ := htorque (c.motion.elim user fun g => (g s period user).2)
  exact ⟨_, combine_eq_ok_iff.2 ⟨motion, torques, hmotion, htorque, rfl⟩⟩

end ControlLoop

namespace Predicate

def answers (p : Predicate τ) : τ → List RobotState → List Bool
  | _, [] => []
  | t, s :: states => (p s t).1 :: answers p (p s t).2 states

/-- The predicate says no to a state exactly when the command that answers it finishes the
motion. -/
def Mirrors (p : Predicate τ) (t : τ) (states : List RobotState) (commands : List RobotCommand) :
    Prop :=
  ∀ i : Nat, (answers p t states)[i]? = some false ↔
    ∃ command, commands[i]? = some command ∧ command.finished = true

theorem mirrors_cons_iff {p : Predicate τ} {t : τ} {s : RobotState} {states : List RobotState}
    {command : RobotCommand} {commands : List RobotCommand} :
    Mirrors p t (s :: states) (command :: commands) ↔
      (p s t).1 = !command.finished ∧ Mirrors p (p s t).2 states commands := by
  have hfirst : ((p s t).1 = false ↔ command.finished = true) ↔ (p s t).1 = !command.finished := by
    cases (p s t).1 <;> cases command.finished <;> simp
  constructor
  · intro h
    refine ⟨hfirst.1 ?_, ?_⟩
    · simpa [answers] using h 0
    · intro i
      simpa [answers] using h (i + 1)
  · rintro ⟨hs, hrest⟩ i
    cases i with
    | zero => simpa [answers] using hfirst.2 hs
    | succ i => simpa [answers] using hrest i

/-- Answers as a list says, and after that always yes. -/
def ofAnswers : Predicate (List Bool) := fun _ answers => (answers.headD true, answers.tail)

theorem answers_ofAnswers_nil (states : List RobotState) :
    answers ofAnswers [] states = List.replicate states.length true := by
  induction states with
  | nil => rfl
  | cons s states ih =>
      rw [List.length_cons, List.replicate_succ, ← ih]
      rfl

/-- Some predicate mirrors any commands, if there are states for all of them. -/
theorem mirrors_ofAnswers {states : List RobotState} {commands : List RobotCommand}
    (h : commands.length ≤ states.length) :
    Mirrors ofAnswers (commands.map fun command => !command.finished) states commands := by
  induction commands generalizing states with
  | nil =>
      intro i
      rw [List.map_nil, answers_ofAnswers_nil]
      simp [List.getElem?_replicate]
  | cons command commands ih =>
      cases states with
      | nil => simp at h
      | cons s states => exact mirrors_cons_iff.2 ⟨rfl, ih (Nat.le_of_succ_le_succ h)⟩

/-- A state that is not answered has the predicate go on. -/
theorem Mirrors.goes_on {p : Predicate τ} {t : τ} {s : RobotState} {states : List RobotState}
    (h : Mirrors p t (s :: states) []) : (p s t).1 = true := by
  have hs := h 0
  simpa [answers] using hs

end Predicate

def Slot.shown? (slot : Slot) : Slot × RobotState × Duration × Command → Option RobotState
  | (called, s, _, _) => if called = slot then some s else none

def Run.shown {σ : Type} (run : Run σ ρ) (slot : Slot) : List RobotState :=
  run.calls.filterMap slot.shown?

end

namespace Reading

variable {σ τ : Type}

def after (reading : Reading σ τ) (states : List RobotState) : Reading σ τ :=
  { reading with seen := states ++ reading.seen }

theorem after_after (reading : Reading σ τ) (states earlier : List RobotState) :
    (reading.after states).after earlier = reading.after (earlier ++ states) := by
  simp [after]

variable [Link σ] {p : Predicate τ} {r r' : Receiver} {link link' : σ} {t : τ} {s : RobotState}
  {period : Duration}

theorem run_of_yes (hnext : r.next link = (.ok (s, period, r'), link')) (hyes : (p s t).1 = true)
    (count : UInt64) :
    run p r link t count = (run p r' link' (p s t).2 (count + 1)).after [s] := by
  rw [run_of_ok hnext]
  generalize p s t = answer at hyes ⊢
  obtain ⟨_, t'⟩ := answer
  cases hyes
  rfl

theorem run_of_no (hnext : r.next link = (.ok (s, period, r'), link')) (hno : (p s t).1 = false)
    (count : UInt64) :
    run p r link t count = ⟨.ok (), link', (p s t).2, [s], count + 1⟩ := by
  rw [run_of_ok hnext]
  generalize p s t = answer at hno ⊢
  obtain ⟨_, t'⟩ := answer
  cases hno
  rfl

end Reading

namespace ControlLoop

variable {ρ τ : Type} {c : ControlLoop ρ} {t t' : Traced ScriptedLink} {user : ρ}
  {x : Exchange ρ} {receiver : Receiver} {xs : List (Exchange ρ)}
  {run : Run (Traced ScriptedLink) ρ}

def NoneUnsent (calls : List LinkCall) : Prop :=
  ∀ channel m e, LinkCall.send channel m (.error e) ∉ calls

def SendsAll {σ : Type} [Link σ] (c : ControlLoop ρ) (link : σ) (user : ρ) : Prop :=
  NoneUnsent (c.run (Traced.start link) user).link.calls

theorem NoneUnsent.append {calls more : List LinkCall} (h : NoneUnsent calls)
    (hmore : NoneUnsent more) : NoneUnsent (calls ++ more) := by
  intro channel m e hmem
  rcases List.mem_append.1 hmem with hmem | hmem
  · exact h channel m e hmem
  · exact hmore channel m e hmem

theorem NoneUnsent.receive {calls : List LinkCall} (h : NoneUnsent calls) (channel : Channel)
    (timeout : Duration) (answer : Except LinkError Bytes) :
    NoneUnsent (calls ++ [.receive channel timeout answer]) := by
  refine h.append ?_
  intro _ _ _ hmem
  cases List.mem_singleton.1 hmem

theorem Exchanges.spares {link link' : ScriptedLink} (h : Exchanges c link user x receiver link')
    (hspares : link.Spares) : link'.Spares := by
  obtain ⟨-, -, rest, hqueue, rfl⟩ := h.scripted
  intro left hleft
  obtain ⟨budget, hbudget, rfl⟩ := Option.map_eq_some_iff.1 hleft
  have hlength := hspares budget hbudget
  rw [hqueue, List.length_cons] at hlength
  dsimp only
  omega

theorem Exchanges.noneUnsent (h : Exchanges c t user x receiver t') (hsent : NoneUnsent t.calls) :
    NoneUnsent t'.calls := by
  rw [h.untraced.2]
  exact hsent.append (by simp [NoneUnsent, Exchange.calls])

theorem Breaks.noneUnsent (h : Breaks c t user run) (hspares : t.link.Spares)
    (hsent : NoneUnsent t.calls) : NoneUnsent run.link.calls := by
  cases h with
  | receive failed =>
      rw [(Traced.receive_eq failed).2]
      exact hsent.receive _ _ _
  | take arrived failed =>
      rw [(Traced.receive_eq arrived).2]
      exact hsent.receive _ _ _
  | fault arrived taken failed =>
      rw [(Traced.receive_eq arrived).2]
      exact hsent.receive _ _ _
  | combine arrived taken unfaulted failed =>
      rw [(Traced.receive_eq arrived).2]
      exact hsent.receive _ _ _
  | send arrived taken unfaulted combined failed =>
      have hreceive := (Traced.receive_eq arrived).1
      have hqueue := ScriptedLink.realtime_of_receive hreceive
      obtain ⟨hfront, hbetween⟩ := ScriptedLink.receive_eq_ok_iff.1 hreceive
      have hopen := (ScriptedLink.front?_eq_some_iff.1 hfront).1
      rcases (ScriptedLink.send_eq_error (Traced.send_eq failed).1).2 with hclosed | hspent
      · rw [hbetween] at hclosed
        cases hopen.symm.trans hclosed
      · rw [hbetween] at hspent
        have hlength := hspares 0 hspent
        rw [hqueue] at hlength
        cases hlength

theorem Course.noneUnsent (h : Course c t user xs run) (hspares : t.link.Spares)
    (hsent : NoneUnsent t.calls) : NoneUnsent run.link.calls := by
  induction h with
  | broken last => exact last.noneUnsent hspares hsent
  | finished last _ => exact last.noneUnsent hsent
  | again first _ _ ih => exact ih (first.untraced.1.spares hspares) (first.noneUnsent hsent)

theorem sendsAll_of_spares (hphase : c.phase.isTerminal = false) {link : ScriptedLink}
    (h : link.Spares) (user : ρ) : c.SendsAll link user := by
  obtain ⟨xs, hxs⟩ := exists_course c (Traced.start link) user
  rw [SendsAll, run_eq hphase]
  exact hxs.noneUnsent h (by simp [NoneUnsent, Traced.start])

theorem Exchanges.next_hearing (h : Exchanges c t user x receiver t') (base : ScriptedLink) :
    c.receiver.next (base.hearing t.link) =
      (.ok (x.state, x.period, receiver), base.hearing t'.link) := by
  obtain ⟨between, hreceive, hsend⟩ := h.untraced.1.carried
  have hnext := Receiver.next_of_receive_ok hreceive
  rw [h.taken] at hnext
  rw [Receiver.next_hearing base hnext, ScriptedLink.hearing_of_send base hsend]

/-- What is left for a cycle to break off at: no state is accepted, or the state has a fault. In
both cases no callback is asked. -/
inductive Breaks.Heard (c : ControlLoop ρ) (base link : ScriptedLink)
    (run : Run (Traced ScriptedLink) ρ) : Prop
  | refused {e : Failure} (heard : c.receiver.next link = (.error e, base.hearing run.link.link))
      (result : run.result = .error e) (events : run.events = [])
  | faulted {m : Bytes} {s : RobotState} {period : Duration} {receiver : Receiver}
      {fault : ControllerFault}
      (heard : c.receiver.next link = (.ok (s, period, receiver), base.hearing run.link.link))
      (taken : c.receiver.take m = .ok (s, period, receiver)) (found : s.fault = some fault)
      (result : run.result = .error (.controllerFault fault))
      (events : run.events = [.received s period])

theorem Breaks.heard (h : Breaks c t user run) (hwell : c.AnswersWell)
    (hsent : NoneUnsent run.link.calls) (base : ScriptedLink) :
    Breaks.Heard c base (base.hearing t.link) run := by
  cases h with
  | receive failed =>
      have hnext := Receiver.next_of_receive_error (Traced.receive_eq failed).1
      exact .refused (Receiver.next_hearing base hnext) rfl rfl
  | take arrived failed =>
      have hnext := Receiver.next_of_receive_ok (Traced.receive_eq arrived).1
      rw [failed] at hnext
      exact .refused (Receiver.next_hearing base hnext) rfl rfl
  | fault arrived taken failed =>
      have hnext := Receiver.next_of_receive_ok (Traced.receive_eq arrived).1
      rw [taken] at hnext
      exact .faulted (Receiver.next_hearing base hnext) taken failed rfl rfl
  | @combine _ _ s period _ e arrived taken unfaulted failed =>
      obtain ⟨command, hcombine⟩ := hwell.exists_combine_eq_ok s period user
      rw [hcombine] at failed
      cases failed
  | @send _ between link' _ _ _ command e arrived taken unfaulted combined failed =>
      have hcalls := (Traced.send_eq failed).2
      refine absurd ?_ (hsent .realtime command.encode e)
      rw [hcalls]
      exact List.mem_append_right _ List.mem_cons_self

/-- How a reading stands to a run that hears the same, answers `states` and ends with `result` and
`left`: both end alike, or the run fails on the fault of the next state and the reading goes on
from there. -/
inductive Shadows (p : Predicate τ) (timeout : Duration) (base : ScriptedLink)
    (states : List RobotState) (result : Except Failure Unit) (left : ScriptedLink)
    (reading : Reading ScriptedLink τ) : Prop
  | together (seen : reading.seen = states) (same : reading.result = result)
      (link : reading.link = base.hearing left)
  | parted {s : RobotState} {fault : ControllerFault} {r : Receiver} {t : τ} {count : UInt64}
      (found : s.fault = some fault) (failed : result = .error (.controllerFault fault))
      (waits : r.timeout = timeout) (last : r.last = some (s.messageId, s.time))
      (on : reading = (Reading.run p r (base.hearing left) t count).after (states ++ [s]))

section Shadows

variable {p : Predicate τ} {timeout : Duration} {base left : ScriptedLink}
  {states : List RobotState} {result : Except Failure Unit} {reading : Reading ScriptedLink τ}

theorem Shadows.after (h : Shadows p timeout base states result left reading) (s : RobotState) :
    Shadows p timeout base (s :: states) result left (reading.after [s]) := by
  cases h with
  | together seen same link => exact .together (congrArg (s :: ·) seen) same link
  | @parted _ _ r t count found failed waits last on =>
      have hon : reading.after [s] = _ := congrArg (Reading.after · [s]) on
      rw [Reading.after_after] at hon
      exact .parted found failed waits last hon

/-- Unless a state with a fault is shown, both end alike. -/
theorem Shadows.alike (h : Shadows p timeout base states result left reading)
    (hnone : ∀ s ∈ reading.seen, s.fault = none) :
    reading.seen = states ∧ reading.result = result ∧ reading.link = base.hearing left := by
  cases h with
  | together seen same link => exact ⟨seen, same, link⟩
  | @parted s fault r t count found failed waits last on =>
      have hshown : s ∈ reading.seen := by
        rw [on]
        exact List.mem_append_left _ (List.mem_append_right _ List.mem_cons_self)
      have hfault := hnone s hshown
      rw [found] at hfault
      cases hfault

theorem takeWhile_unfaulted {before after : List RobotState} {s : RobotState}
    {fault : ControllerFault} (hbefore : ∀ b ∈ before, b.fault = none)
    (hs : s.fault = some fault) :
    (before ++ s :: after).takeWhile (·.fault.isNone) = before := by
  rw [List.takeWhile_append_of_pos (by simpa using hbefore),
    List.takeWhile_cons_of_neg (by simp [hs]), List.append_nil]

/-- The first state with a fault that is shown is the one on which the run fails. -/
theorem Shadows.part (h : Shadows p timeout base states result left reading)
    (hstates : ∀ s ∈ states, s.fault = none) {before after : List RobotState} {s : RobotState}
    {fault : ControllerFault} (hseen : reading.seen = before ++ s :: after)
    (hbefore : ∀ b ∈ before, b.fault = none) (hs : s.fault = some fault) :
    before = states ∧ result = .error (.controllerFault fault) ∧
      ∃ (r : Receiver) (t : τ) (count : UInt64), r.timeout = timeout ∧
        r.last = some (s.messageId, s.time) ∧
          reading = (Reading.run p r (base.hearing left) t count).after (before ++ [s]) := by
  cases h with
  | together seen same link =>
      have hmem : s ∈ states := by
        rw [← seen, hseen]
        exact List.mem_append_right _ List.mem_cons_self
      have hfault := hstates s hmem
      rw [hs] at hfault
      cases hfault
  | @parted s' fault' r t count found failed waits last on =>
      have hrest : reading.seen =
          states ++ s' :: (Reading.run p r (base.hearing left) t count).seen := by
        rw [on, Reading.after, List.append_assoc]
        rfl
      have hsplit := hseen.symm.trans hrest
      have hsame : before = states := by
        rw [← takeWhile_unfaulted hbefore hs, hsplit, takeWhile_unfaulted hstates found]
      rw [hsame] at hsplit
      obtain ⟨hs', -⟩ := List.cons.inj (List.append_cancel_left hsplit)
      rw [← hs'] at found last on
      rw [hs] at found
      cases found
      rw [hsame]
      exact ⟨rfl, failed, r, t, count, waits, last, on⟩

end Shadows

/-- As long as the predicate mirrors the commands, a read follows the loop cycle by cycle. -/
theorem Course.shadows (h : Course c t user xs run) (hwell : c.AnswersWell)
    (hsent : NoneUnsent run.link.calls) (base : ScriptedLink) {p : Predicate τ} {u : τ}
    (hmirror : p.Mirrors u (run.received.map Prod.fst) run.commands) (count : UInt64) :
    Shadows p c.receiver.timeout base (xs.map (·.state)) run.result run.link.link
      (Reading.run p c.receiver (base.hearing t.link) u count) := by
  -- Along the course. Receiver and link are the same on both sides before every cycle, so the
  -- predicate is shown the state that the callbacks are shown, and its answer is the command's.
  induction h generalizing u count with
  | @broken c t user run last =>
      cases last.heard hwell hsent base with
      | refused heard result _ =>
          rw [Reading.run_of_error heard]
          exact .together rfl result.symm rfl
      | @faulted m s period receiver fault heard taken found result events =>
          have hreceived : run.received.map Prod.fst = [s] := by
            rw [Run.received, events]
            rfl
          rw [hreceived, last.commands_eq] at hmirror
          rw [Reading.run_of_yes heard hmirror.goes_on]
          exact .parted found result (Receiver.timeout_of_take taken)
            (Receiver.last_of_take taken) rfl
  | @finished c t t' user x receiver last final =>
      have hheard := last.next_hearing base
      rw [Run.received, last.filterMap_received, Run.commands, last.filterMap_sent] at hmirror
      obtain ⟨hanswer, -⟩ := Predicate.mirrors_cons_iff.1 hmirror
      rw [final] at hanswer
      rw [Reading.run_of_no hheard hanswer]
      exact .together rfl rfl rfl
  | @again c t t' user x receiver xs run first ongoing rest ih =>
      have hheard := first.next_hearing base
      rw [Run.received, Run.commands, Run.after, List.filterMap_append, List.filterMap_append,
        first.filterMap_received, first.filterMap_sent] at hmirror
      obtain ⟨hanswer, hrest⟩ := Predicate.mirrors_cons_iff.1 hmirror
      rw [ongoing] at hanswer
      have hshadows := ih ⟨hwell.motion, hwell.torque⟩ hsent hrest (count + 1)
      have htimeout : (c.afterSend receiver).receiver.timeout = c.receiver.timeout :=
        Receiver.timeout_of_take first.taken
      rw [htimeout] at hshadows
      rw [Reading.run_of_yes hheard hanswer]
      exact hshadows.after x.state

theorem Exchanges.filterMap_shown {link link' : ScriptedLink}
    (h : Exchanges c link user x receiver link') {slot : Slot}
    (hslot : (c.callback slot).isSome = true) : x.asked.filterMap slot.shown? = [x.state] := by
  rw [Exchange.asked, h.asked, dispatch_motion, dispatch_torque]
  obtain ⟨f, hf⟩ := Option.isSome_iff_exists.1 hslot
  cases slot with
  | motion =>
      have hmotion : c.motion = some f := hf
      rw [hmotion]
      cases c.torque <;> rfl
  | torque =>
      have htorque : c.torque = some f := hf
      rw [htorque]
      cases c.motion <;> rfl

/-- Every callback that there is, is shown the states that are answered, and no other. -/
theorem Course.shown_eq (h : Course c t user xs run) (hwell : c.AnswersWell)
    (hsent : NoneUnsent run.link.calls) {slot : Slot} (hslot : (c.callback slot).isSome = true) :
    run.shown slot = xs.map (·.state) := by
  induction h with
  | @broken c t user run last =>
      cases last.heard hwell hsent t.link with
      | refused _ _ events =>
          rw [Run.shown, Run.calls, events]
          rfl
      | faulted _ _ _ _ events =>
          rw [Run.shown, Run.calls, events]
          rfl
  | finished last _ =>
      rw [Run.shown, Run.calls, last.untraced.1.filterMap_called]
      exact last.untraced.1.filterMap_shown hslot
  | again first _ _ ih =>
      have hrest := ih ⟨hwell.motion, hwell.torque⟩ hsent hslot
      rw [Run.shown, Run.calls, Run.after, List.filterMap_append, List.filterMap_append,
        first.untraced.1.filterMap_called, first.untraced.1.filterMap_shown hslot]
      exact congrArg (_ :: ·) hrest

/-- The commands of a run are no more than the states that it accepts. -/
theorem length_commands_le (hphase : c.phase.isTerminal = false) (link : ScriptedLink) (user : ρ) :
    (c.run link user).commands.length ≤ ((c.run link user).received.map Prod.fst).length := by
  obtain ⟨xs, hxs⟩ := exists_course c link user
  obtain ⟨unanswered, r, -, -, hreceived⟩ := hxs.takes_received
  rw [commands_run hphase, received_run hphase, hxs.commands_eq, hreceived]
  simp

structure Agree (c : ControlLoop ρ) (ran : Run ScriptedLink ρ) (reading : Reading ScriptedLink τ) :
    Prop where
  shown : ∀ slot, (c.callback slot).isSome = true → ran.shown slot = reading.seen
  result : ran.result = reading.result
  realtime : ran.link.realtime = reading.link.realtime
  closed : ran.link.closed = reading.link.closed

/-- The loop fails on the fault of `s`, which it does not show. The read shows `s` as well and goes
on, with what the loop leaves to be heard on the link. -/
structure Part (c : ControlLoop ρ) (timeout : Duration) (link : ScriptedLink) (p : Predicate τ)
    (before : List RobotState) (s : RobotState) (fault : ControllerFault)
    (ran : Run ScriptedLink ρ) (reading : Reading ScriptedLink τ) : Prop where
  shown : ∀ slot, (c.callback slot).isSome = true → ran.shown slot = before
  result : ran.result = .error (.controllerFault fault)
  on : ∃ (r : Receiver) (t : τ) (count : UInt64), r.timeout = timeout ∧
    r.last = some (s.messageId, s.time) ∧
      reading = (Reading.run p r (link.hearing ran.link) t count).after (before ++ [s])

theorem exists_shadows {mode : Mode} {motion torque : Option (Callback ρ)} {timeout : Duration}
    (hnew : new mode motion torque timeout = .ok c) (hwell : c.AnswersWell) (link : ScriptedLink)
    (user : ρ) (hsends : c.SendsAll link user) (p : Predicate τ) (u : τ)
    (hmirror : p.Mirrors u ((c.run link user).received.map Prod.fst) (c.run link user).commands) :
    ∃ states, (∀ s ∈ states, s.fault = none) ∧
      (∀ slot, (c.callback slot).isSome = true → (c.run link user).shown slot = states) ∧
      Shadows p timeout link states (c.run link user).result (c.run link user).link
        (readLoop timeout p link u) := by
  obtain ⟨hphase, hreceiver, -⟩ := initial_of_new hnew
  obtain ⟨xs, hxs⟩ := exists_course c (Traced.start link) user
  let traced := c.cycles (Traced.start link) user
  have hran : traced.mapLink Traced.link = c.cycles link user :=
    cycles_traced c (Traced.start link) user
  have hsent : NoneUnsent traced.link.calls := by
    rw [SendsAll, run_eq hphase] at hsends
    exact hsends
  refine ⟨xs.map (·.state), ?_, ?_, ?_⟩
  · intro s hs
    obtain ⟨x, hx, rfl⟩ := List.mem_map.1 hs
    obtain ⟨_, _, _, _, _, hexchange, -⟩ := hxs.exists_exchanges hx
    exact hexchange.unfaulted
  · intro slot hslot
    rw [← hxs.shown_eq hwell hsent hslot, Run.shown, calls_run hphase, ← hran]
    rfl
  · rw [received_run hphase, commands_run hphase, ← hran] at hmirror
    have hshadows := hxs.shadows hwell hsent link hmirror 0
    rw [hreceiver] at hshadows
    rw [run_eq hphase, ← hran]
    exact hshadows

/-- A loop and a read that mirrors its commands are shown the same states and come to the same end.
They part only at the first state with a fault. -/
theorem control_and_read_agree {mode : Mode} {motion torque : Option (Callback ρ)}
    {timeout : Duration} (hnew : new mode motion torque timeout = .ok c) (hwell : c.AnswersWell)
    (link : ScriptedLink) (user : ρ) (hsends : c.SendsAll link user) (p : Predicate τ) (u : τ)
    (hmirror : p.Mirrors u ((c.run link user).received.map Prod.fst) (c.run link user).commands) :
    let ran := c.run link user
    let reading := readLoop timeout p link u
    ((∀ s ∈ reading.seen, s.fault = none) → Agree c ran reading) ∧
      ∀ before s after fault, reading.seen = before ++ s :: after →
        (∀ b ∈ before, b.fault = none) → s.fault = some fault →
          Part c timeout link p before s fault ran reading := by
  intro ran reading
  obtain ⟨states, hunfaulted, hshown, hshadows⟩ :=
    exists_shadows hnew hwell link user hsends p u hmirror
  refine ⟨fun hnone => ?_, fun before s after fault hseen hbefore hs => ?_⟩
  · obtain ⟨hseen, hsame, hlink⟩ := hshadows.alike hnone
    exact ⟨fun slot hslot => (hshown slot hslot).trans hseen.symm, hsame.symm,
      (congrArg ScriptedLink.realtime hlink).symm, (congrArg ScriptedLink.closed hlink).symm⟩
  · obtain ⟨hstates, hfailed, hon⟩ := hshadows.part hunfaulted hseen hbefore hs
    exact ⟨fun slot hslot => (hshown slot hslot).trans hstates.symm, hfailed, hon⟩

/-- The second state has a fault. The predicate is one that mirrors the commands. -/
theorem control_and_read_agree_of_fault :
    let hold : Callback Nat := fun _ _ n =>
      (.ofSetpoint .jointPosition ⟨.zeros jointCount, n = 5⟩, n + 1)
    let at' : UInt64 → RobotState := fun id => { RobotState.initial with messageId := id }
    let link := ScriptedLink.ofStates
      [at' 7, { at' 8 with fault := some .cartesianReflex }, at' 9]
    let c : ControlLoop Nat :=
      ⟨.motionOnly .jointPosition, some hold, none, .new (.ofMillis 1000), .idle, 0⟩
    let ran := c.run link 0
    let answers := ran.commands.map fun command => !command.finished
    let reading := readLoop (.ofMillis 1000) Predicate.ofAnswers link answers
    new (.motionOnly .jointPosition) (some hold) none (.ofMillis 1000) = .ok c ∧ c.AnswersWell ∧
      c.SendsAll link 0 ∧
      Predicate.ofAnswers.Mirrors answers (ran.received.map Prod.fst) ran.commands ∧
      ((∀ s ∈ reading.seen, s.fault = none) → Agree c ran reading) ∧
        ∀ before s after fault, reading.seen = before ++ s :: after →
          (∀ b ∈ before, b.fault = none) → s.fault = some fault →
            Part c (.ofMillis 1000) link Predicate.ofAnswers before s fault ran reading := by
  intro hold at' link c ran answers reading
  have hnew : new (.motionOnly .jointPosition) (some hold) none (.ofMillis 1000) = .ok c := rfl
  have hwell : c.AnswersWell := by
    refine ⟨?_, ?_⟩
    · intro callback hcallback
      cases hcallback
      exact ⟨_, rfl, fun s period n => ⟨rfl, rfl⟩⟩
    · intro callback hcallback
      cases hcallback
  have hsends : c.SendsAll link 0 := by
    refine sendsAll_of_spares rfl ?_ 0
    intro left hleft
    cases hleft
  have hmirror : Predicate.ofAnswers.Mirrors answers (ran.received.map Prod.fst) ran.commands :=
    Predicate.mirrors_ofAnswers (length_commands_le rfl link 0)
  exact ⟨hnew, hwell, hsends, hmirror,
    control_and_read_agree hnew hwell link 0 hsends Predicate.ofAnswers answers hmirror⟩

end ControlLoop

end ArmSession
