import ArmSession.Proofs.CommandParts
import ArmSession.Proofs.Intake
import Mathlib.Tactic.SplitIfs

/-!
# The course of a run

A cycle either is an exchange, which takes a state and sends a command for it, or breaks off.
`Course` says how a run is made of them: exchanges whose commands do not finish the motion, and
at the end one that does or a cycle that breaks off. Every run has exactly one course.
-/

namespace ArmSession

structure Exchange (ρ : Type) extends Intake where
  answers : Answers ρ
  command : RobotCommand

namespace Exchange

variable {ρ : Type}

def events (x : Exchange ρ) : List Event :=
  .received x.state x.period :: x.answers.events ++ [.sent x.command]

end Exchange

namespace ControlLoop

variable {σ ρ : Type}

theorem new_eq_ok_iff {mode : Mode} {motion torque : Option (Callback ρ)} {timeout : Duration}
    {c : ControlLoop ρ} : new mode motion torque timeout = .ok c ↔
      mode.isReadOnly = false ∧ mode.motion.isSome = motion.isSome ∧
        mode.torque = torque.isSome ∧ c = ⟨mode, motion, torque, .new timeout, .idle, 0⟩ := by
  unfold new
  cases hr : mode.isReadOnly with
  | true => simp
  | false =>
      by_cases hm : mode.motion.isSome = motion.isSome
      · by_cases ht : mode.torque = torque.isSome
        · simp [hm, ht, eq_comm]
        · simp [hm, ht]
      · simp [hm]

theorem initial_of_new {mode : Mode} {motion torque : Option (Callback ρ)} {timeout : Duration}
    {c : ControlLoop ρ} (h : new mode motion torque timeout = .ok c) :
    c.phase.isTerminal = false ∧ c.receiver = .new timeout ∧ c.commandsSent = 0 := by
  obtain ⟨-, -, -, rfl⟩ := new_eq_ok_iff.1 h
  exact ⟨rfl, rfl, rfl⟩

/-- The slots of a loop are those that its mode uses, and at least one is used. -/
structure Fits (c : ControlLoop ρ) : Prop where
  used : c.mode.isReadOnly = false
  motion : c.mode.motion.isSome = c.motion.isSome
  torque : c.mode.torque = c.torque.isSome

theorem fits_of_new {mode : Mode} {motion torque : Option (Callback ρ)} {timeout : Duration}
    {c : ControlLoop ρ} (h : new mode motion torque timeout = .ok c) : Fits c := by
  obtain ⟨hused, hmotion, htorque, rfl⟩ := new_eq_ok_iff.1 h
  exact ⟨hused, hmotion, htorque⟩

theorem Fits.of_eq {c c' : ControlLoop ρ} (h : Fits c) (hmode : c'.mode = c.mode)
    (hmotion : c'.motion = c.motion) (htorque : c'.torque = c.torque) : Fits c' := by
  refine ⟨?_, ?_, ?_⟩
  · rw [hmode]; exact h.used
  · rw [hmode, hmotion]; exact h.motion
  · rw [hmode, htorque]; exact h.torque

def afterSend (c : ControlLoop ρ) (receiver : Receiver) : ControlLoop ρ :=
  { c with receiver, phase := .send, commandsSent := c.commandsSent + 1 }

variable [Link σ] {c : ControlLoop ρ} {link link' : σ} {user : ρ}

/-- One cycle that takes a state from the link and sends a command for it. -/
structure Exchanges (c : ControlLoop ρ) (link : σ) (user : ρ) (x : Exchange ρ)
    (receiver : Receiver) (link' : σ) : Prop where
  carried : ∃ between, Link.receive .realtime c.receiver.timeout link = (.ok x.message, between) ∧
    Link.send .realtime x.command.encode between = (.ok (), link')
  taken : c.receiver.take x.message = .ok (x.state, x.period, receiver)
  unfaulted : x.state.fault = none
  asked : x.answers = c.dispatch x.state x.period user
  combined : combine c.mode x.state.messageId x.answers.motion x.answers.torque = .ok x.command

inductive Breaks (c : ControlLoop ρ) (link : σ) (user : ρ) : Run σ ρ → Prop
  | receive {e : LinkError} {link' : σ}
      (failed : Link.receive .realtime c.receiver.timeout link = (.error e, link')) :
      Breaks c link user ⟨.error (.link e), { c with phase := .awaitState }, link', user, []⟩
  | take {m : Bytes} {link' : σ} {e : Failure}
      (arrived : Link.receive .realtime c.receiver.timeout link = (.ok m, link'))
      (failed : c.receiver.take m = .error e) :
      Breaks c link user ⟨.error e, { c with phase := .awaitState }, link', user, []⟩
  | fault {m : Bytes} {link' : σ} {s : RobotState} {period : Duration} {receiver : Receiver}
      {fault : ControllerFault}
      (arrived : Link.receive .realtime c.receiver.timeout link = (.ok m, link'))
      (taken : c.receiver.take m = .ok (s, period, receiver)) (failed : s.fault = some fault) :
      Breaks c link user ⟨.error (.controllerFault fault), { c with receiver, phase := .dispatch },
        link', user, [.received s period]⟩
  | combine {m : Bytes} {link' : σ} {s : RobotState} {period : Duration} {receiver : Receiver}
      {e : Failure}
      (arrived : Link.receive .realtime c.receiver.timeout link = (.ok m, link'))
      (taken : c.receiver.take m = .ok (s, period, receiver)) (unfaulted : s.fault = none)
      (failed : combine c.mode s.messageId (c.dispatch s period user).motion
        (c.dispatch s period user).torque = .error e) :
      Breaks c link user ⟨.error e, { c with receiver, phase := .validate }, link',
        (c.dispatch s period user).user,
        .received s period :: (c.dispatch s period user).events⟩
  | send {m : Bytes} {between link' : σ} {s : RobotState} {period : Duration}
      {receiver : Receiver} {command : RobotCommand} {e : LinkError}
      (arrived : Link.receive .realtime c.receiver.timeout link = (.ok m, between))
      (taken : c.receiver.take m = .ok (s, period, receiver)) (unfaulted : s.fault = none)
      (combined : ControlLoop.combine c.mode s.messageId (c.dispatch s period user).motion
        (c.dispatch s period user).torque = .ok command)
      (failed : Link.send .realtime command.encode between = (.error e, link')) :
      Breaks c link user ⟨.error (.link e), { c with receiver, phase := .send }, link',
        (c.dispatch s period user).user,
        .received s period :: (c.dispatch s period user).events⟩

theorem cycle_of_exchanges {x : Exchange ρ} {receiver : Receiver}
    (h : Exchanges c link user x receiver link') : c.cycle link user =
      if x.command.finished then
        .ended ⟨.ok (), { c.afterSend receiver with phase := .finishing }, link', x.answers.user,
          x.events⟩
      else .again (c.afterSend receiver) link' x.answers.user x.events := by
  obtain ⟨⟨between, hreceive, hsend⟩, htake, hfault, hasked, hcombined⟩ := h
  have hnext : c.receiver.next link = (.ok (x.state, x.period, receiver), between) := by
    simp [Receiver.next, hreceive, htake]
  rw [hasked] at hcombined
  simp only [cycle, hnext, hfault, hcombined, hsend, Exchange.events, hasked]
  rfl

theorem cycle_of_breaks {run : Run σ ρ} (h : Breaks c link user run) :
    c.cycle link user = .ended run := by
  cases h with
  | receive failed => simp [cycle, Receiver.next, failed]
  | take arrived failed => simp [cycle, Receiver.next, arrived, failed]
  | fault arrived taken failed => simp [cycle, Receiver.next, arrived, taken, failed]
  | combine arrived taken unfaulted failed =>
      simp [cycle, Receiver.next, arrived, taken, unfaulted, failed]
  | send arrived taken unfaulted combined failed =>
      simp [cycle, Receiver.next, arrived, taken, unfaulted, combined, failed]

/-- Every cycle is an exchange or breaks off. -/
theorem exchanges_or_breaks (c : ControlLoop ρ) (link : σ) (user : ρ) :
    (∃ x receiver link', Exchanges c link user x receiver link') ∨
      ∃ run, Breaks c link user run := by
  cases hreceive : Link.receive .realtime c.receiver.timeout link with
  | mk answer between =>
  cases answer with
  | error e => exact .inr ⟨_, .receive hreceive⟩
  | ok m =>
  cases htake : c.receiver.take m with
  | error e => exact .inr ⟨_, .take hreceive htake⟩
  | ok accepted =>
  obtain ⟨s, period, receiver⟩ := accepted
  cases hfault : s.fault with
  | some fault => exact .inr ⟨_, .fault hreceive htake hfault⟩
  | none =>
  cases hcombine : combine c.mode s.messageId (c.dispatch s period user).motion
      (c.dispatch s period user).torque with
  | error e => exact .inr ⟨_, .combine hreceive htake hfault hcombine⟩
  | ok command =>
  cases hsend : Link.send .realtime command.encode between with
  | mk answer link' =>
  cases answer with
  | error e => exact .inr ⟨_, .send hreceive htake hfault hcombine hsend⟩
  | ok _ =>
      exact .inl ⟨⟨⟨m, s, period⟩, c.dispatch s period user, command⟩, receiver, link',
        ⟨between, hreceive, hsend⟩, htake, hfault, rfl, hcombine⟩

inductive Course : ControlLoop ρ → σ → ρ → List (Exchange ρ) → Run σ ρ → Prop
  | broken {c : ControlLoop ρ} {link : σ} {user : ρ} {run : Run σ ρ}
      (last : Breaks c link user run) : Course c link user [] run
  | finished {c : ControlLoop ρ} {link link' : σ} {user : ρ} {x : Exchange ρ}
      {receiver : Receiver} (last : Exchanges c link user x receiver link')
      (final : x.command.finished = true) :
      Course c link user [x] ⟨.ok (), { c.afterSend receiver with phase := .finishing }, link',
        x.answers.user, x.events⟩
  | again {c : ControlLoop ρ} {link link' : σ} {user : ρ} {x : Exchange ρ}
      {receiver : Receiver} {xs : List (Exchange ρ)} {run : Run σ ρ}
      (first : Exchanges c link user x receiver link') (ongoing : x.command.finished = false)
      (rest : Course (c.afterSend receiver) link' x.answers.user xs run) :
      Course c link user (x :: xs) (run.after x.events)

theorem Course.cycles_eq {xs : List (Exchange ρ)} {run : Run σ ρ}
    (h : Course c link user xs run) : c.cycles link user = run := by
  induction h with
  | broken last => exact cycles_of_ended (cycle_of_breaks last)
  | finished last final =>
      exact cycles_of_ended (by rw [cycle_of_exchanges last, if_pos final])
  | again first ongoing _ ih =>
      have hcycle := cycle_of_exchanges first
      rw [if_neg (by simp [ongoing])] at hcycle
      rw [cycles_of_again hcycle, ih]

theorem exists_course (c : ControlLoop ρ) (link : σ) (user : ρ) :
    ∃ xs, Course c link user xs (c.cycles link user) := by
  induction c, link, user using cycles.induct with
  | case1 c link user run hcycle =>
      rw [cycles_of_ended hcycle]
      rcases exchanges_or_breaks c link user with ⟨x, receiver, link', hx⟩ | ⟨stop, hs⟩
      · rw [cycle_of_exchanges hx] at hcycle
        split_ifs at hcycle with hfinal
        cases hcycle
        exact ⟨[x], .finished hx hfinal⟩
      · rw [cycle_of_breaks hs] at hcycle
        cases hcycle
        exact ⟨[], .broken hs⟩
  | case2 c link user c' link' user' events hcycle ih =>
      rw [cycles_of_again hcycle]
      rcases exchanges_or_breaks c link user with ⟨x, receiver, between, hx⟩ | ⟨stop, hs⟩
      · rw [cycle_of_exchanges hx] at hcycle
        split_ifs at hcycle with hfinal
        cases hcycle
        obtain ⟨xs, hxs⟩ := ih
        exact ⟨x :: xs, .again hx (by simpa using hfinal) hxs⟩
      · rw [cycle_of_breaks hs] at hcycle
        cases hcycle

namespace Course

variable {xs : List (Exchange ρ)} {run : Run σ ρ}

theorem takes (h : Course c link user xs run) :
    ∃ r, c.receiver.Takes (xs.map Exchange.toIntake) r := by
  induction h with
  | broken _ => exact ⟨_, .none _⟩
  | finished last _ => exact ⟨_, .more last.taken (.none _)⟩
  | again first _ _ ih =>
      obtain ⟨r, hr⟩ := ih
      exact ⟨r, .more first.taken hr⟩

/-- Every exchange of a course is a cycle of a loop with the same mode and callbacks. -/
theorem exists_exchanges (h : Course c link user xs run) {x : Exchange ρ} (hx : x ∈ xs) :
    ∃ (c' : ControlLoop ρ) (before : σ) (asking : ρ) (receiver : Receiver) (after : σ),
      Exchanges c' before asking x receiver after ∧
        c'.mode = c.mode ∧ c'.motion = c.motion ∧ c'.torque = c.torque := by
  induction h with
  | broken => cases hx
  | @finished c link link' user y receiver last _ =>
      cases List.mem_singleton.1 hx
      exact ⟨c, link, user, receiver, link', last, rfl, rfl, rfl⟩
  | @again c link link' user y receiver _ _ first _ _ ih =>
      cases hx with
      | head => exact ⟨c, link, user, receiver, link', first, rfl, rfl, rfl⟩
      | tail _ hx => exact ih hx

/-- A command names the state that it answers. -/
theorem messageId_eq (h : Course c link user xs run) {x : Exchange ρ} (hx : x ∈ xs) :
    x.command.messageId = x.state.messageId := by
  obtain ⟨_, _, _, _, _, hexchange, -⟩ := h.exists_exchanges hx
  exact messageId_of_combine hexchange.combined

theorem commandsSent_eq (h : Course c link user xs run) :
    run.loop.commandsSent = c.commandsSent + UInt64.ofNat xs.length := by
  induction h with
  | broken last => cases last <;> simp
  | finished => rfl
  | @again c _ _ _ _ _ xs run _ _ _ ih =>
      rw [Run.after, ih, afterSend, List.length_cons, UInt64.add_assoc, UInt64.add_comm 1,
        ← UInt64.ofNat_one, ← UInt64.ofNat_add]

theorem ongoing_of_mem_dropLast (h : Course c link user xs run) {x : Exchange ρ}
    (hx : x ∈ xs.dropLast) : x.command.finished = false := by
  induction h with
  | broken => cases hx
  | finished => cases hx
  | @again _ _ _ _ y _ xs _ _ ongoing _ ih =>
      cases xs with
      | nil => cases hx
      | cons z zs =>
          rw [List.dropLast_cons_cons] at hx
          cases hx with
          | head => exact ongoing
          | tail _ hx => exact ih hx

theorem unfinished (h : Course c link user xs run) (hrun : run.result ≠ .ok ()) :
    ∀ x ∈ xs, x.command.finished = false := by
  induction h with
  | broken => simp
  | finished => exact absurd rfl hrun
  | again _ ongoing _ ih =>
      intro x hx
      cases hx with
      | head => exact ongoing
      | tail _ hx => exact ih hrun x hx

/-- A run ends well exactly when its last command finishes the motion. -/
theorem result_eq_ok_iff (h : Course c link user xs run) :
    run.result = .ok () ↔ ∃ x, xs.getLast? = some x ∧ x.command.finished = true := by
  induction h with
  | broken last => cases last <;> simp
  | finished _ final => simp [final]
  | @again _ _ _ _ x _ xs run _ ongoing _ ih =>
      rw [show (run.after x.events).result = run.result from rfl, ih]
      cases xs with
      | nil => simp [ongoing]
      | cons y ys => simp [List.getLast?_cons_cons]

end Course

def endPhase : Except Failure Unit → Phase
  | .ok () => .finished
  | .error _ => .faulted

def endEvent (ran : Run σ ρ) : Event :=
  match ran.result with
  | .ok () => .finished ran.loop.commandsSent
  | .error e => .faulted ran.loop.phase ran.loop.commandsSent e

theorem run_eq (h : c.phase.isTerminal = false) (link : σ) (user : ρ) :
    c.run link user =
      let ran := c.cycles link user
      { ran with
        loop := { ran.loop with phase := endPhase ran.result }
        events := .started c.mode :: ran.events ++ [endEvent ran] } := by
  unfold run
  rw [if_neg (by simp [h])]
  dsimp only [endEvent]
  cases (c.cycles link user).result <;> rfl

/-- What a run reports at its beginning and at its end tells of no state, call or command. -/
theorem filterMap_events_run {α : Type} {f : Event → Option α} (h : c.phase.isTerminal = false)
    (hstarted : ∀ mode, f (.started mode) = none) (hfinished : ∀ n, f (.finished n) = none)
    (hfaulted : ∀ phase n e, f (.faulted phase n e) = none) (link : σ) (user : ρ) :
    (c.run link user).events.filterMap f = (c.cycles link user).events.filterMap f := by
  have hend : f (endEvent (c.cycles link user)) = none := by
    rw [endEvent]
    cases (c.cycles link user).result with
    | ok _ => exact hfinished _
    | error e => exact hfaulted _ _ e
  rw [run_eq h]
  dsimp only
  rw [List.cons_append, List.filterMap_cons_none (hstarted _), List.filterMap_append]
  simp [hend]

theorem run_of_terminal (h : c.phase.isTerminal = true) (link : σ) (user : ρ) :
    c.run link user = ⟨.error (.alreadyEnded c.phase), c, link, user, []⟩ := if_pos h

end ControlLoop

end ArmSession
