import ArmSession.Log
import ArmSession.Receiver
import ArmSession.RobotCommand

/-!
# Control loops

A control loop answers every accepted state with one command. In a cycle it takes a state,
asks the motion callback and then the torque callback, checks their answers and sends them as
one command. The first step that fails ends the loop, before anything of that cycle is sent;
a command that says the motion is finished is the last one.

Callbacks share a state of type `ρ`, which they may read and change. What happens in a run is
told by its events, in order.
-/

namespace ArmSession

abbrev Callback (ρ : Type) := RobotState → Duration → ρ → Command × ρ

inductive Slot
  | motion
  | torque
deriving DecidableEq

inductive Event
  | started (mode : Mode)
  | received (state : RobotState) (period : Duration)
  | called (slot : Slot) (state : RobotState) (period : Duration) (answer : Command)
  | sent (command : RobotCommand)
  | finished (commands : UInt64)
  | faulted (phase : Phase) (commands : UInt64) (cause : Failure)
deriving DecidableEq

namespace Event

def received? : Event → Option (RobotState × Duration)
  | received state period => some (state, period)
  | _ => none

def called? : Event → Option (Slot × RobotState × Duration × Command)
  | called slot state period answer => some (slot, state, period, answer)
  | _ => none

def sent? : Event → Option RobotCommand
  | sent command => some command
  | _ => none

def log : Event → List Log.Line
  | started mode => [⟨.debug, s!"Control loop started (mode: {mode.text})"⟩]
  | received _ _ => []
  | called _ _ _ _ => []
  | sent command =>
    [⟨.trace, s!"Cycle {command.messageId} sent (finished: {command.finished})"⟩]
  | finished commands => [⟨.debug, s!"Control loop finished after {commands} commands"⟩]
  | faulted phase commands cause =>
    [⟨.error,
      s!"Control loop faulted in {phase.name} after {commands} commands: {cause.text}"⟩]

end Event

structure ControlLoop (ρ : Type) where
  mode : Mode
  motion : Option (Callback ρ)
  torque : Option (Callback ρ)
  receiver : Receiver
  phase : Phase
  commandsSent : UInt64

structure Run (σ ρ : Type) where
  result : Except Failure Unit
  loop : ControlLoop ρ
  link : σ
  user : ρ
  events : List Event

/-- What one cycle comes to: the end of the run, or a loop that goes on. -/
inductive Cycle (σ ρ : Type)
  | ended (run : Run σ ρ)
  | again (loop : ControlLoop ρ) (link : σ) (user : ρ) (events : List Event)

namespace Run

variable {σ ρ : Type}

def after (r : Run σ ρ) (events : List Event) : Run σ ρ := { r with events := events ++ r.events }

def log (r : Run σ ρ) : List Log.Line := r.events.flatMap Event.log

def received (r : Run σ ρ) : List (RobotState × Duration) := r.events.filterMap Event.received?

def calls (r : Run σ ρ) : List (Slot × RobotState × Duration × Command) :=
  r.events.filterMap Event.called?

def commands (r : Run σ ρ) : List RobotCommand := r.events.filterMap Event.sent?

end Run

structure Answers (ρ : Type) where
  motion : Option Command
  torque : Option Command
  user : ρ
  events : List Event

namespace ControlLoop

variable {σ ρ : Type}

/-- A loop that has not begun. The callbacks have to be those that the mode uses. -/
def new (mode : Mode) (motion torque : Option (Callback ρ)) (timeout : Duration) :
    Except Failure (ControlLoop ρ) :=
  if mode.isReadOnly then .error .nothingToControl
  else if mode.motion.isSome ≠ motion.isSome then .error (.motionMismatch mode)
  else if mode.torque ≠ torque.isSome then .error (.torqueMismatch mode)
  else .ok ⟨mode, motion, torque, .new timeout, .idle, 0⟩

def ask (slot : Slot) (callback : Option (Callback ρ)) (s : RobotState) (period : Duration)
    (user : ρ) : Option Command × ρ × List Event :=
  match callback with
  | none => (none, user, [])
  | some callback =>
    let (answer, user) := callback s period user
    (some answer, user, [.called slot s period answer])

def dispatch (c : ControlLoop ρ) (s : RobotState) (period : Duration) (user : ρ) : Answers ρ :=
  let (motion, user, first) := ask .motion c.motion s period user
  let (torque, user, second) := ask .torque c.torque s period user
  ⟨motion, torque, user, first ++ second⟩

def checkCommand (mode : Mode) (expected : CommandKind) (command : Command) :
    Except Failure Unit :=
  if command.kind ≠ expected then .error (.wrongCommand command.kind expected mode)
  else if command.isFinite then .ok ()
  else .error (.nonFinite command.kind)

def motionPart (mode : Mode) (answer : Option Command) : Except Failure (Option MotionCommand) :=
  match mode.expectedMotion, answer with
  | some expected, some command =>
    match checkCommand mode expected command with
    | .error e => .error e
    | .ok () => .ok command.motion?
  | _, _ => .ok none

def torquePart (mode : Mode) (answer : Option Command) : Except Failure (Option Torques) :=
  match answer with
  | some command =>
    match checkCommand mode .torques command with
    | .error e => .error e
    | .ok () => .ok command.torques?
  | none => .ok none

/-- The command that answers a state, or what is wrong with the callbacks' answers. The
motion is checked first. -/
def combine (mode : Mode) (messageId : UInt64) (motion torque : Option Command) :
    Except Failure RobotCommand :=
  match motionPart mode motion with
  | .error e => .error e
  | .ok motion =>
    match torquePart mode torque with
    | .error e => .error e
    | .ok torques => .ok ⟨messageId, motion, torques⟩

variable [Link σ]

/-- One cycle: a state, the callbacks' answers to it, and the command made of them. -/
def cycle (c : ControlLoop ρ) (link : σ) (user : ρ) : Cycle σ ρ :=
  match c.receiver.next link with
  | (.error e, link) => .ended ⟨.error e, { c with phase := .awaitState }, link, user, []⟩
  | (.ok (s, period, receiver), link) =>
    match s.fault with
    | some fault =>
      .ended ⟨.error (.controllerFault fault), { c with receiver, phase := .dispatch }, link, user,
        [.received s period]⟩
    | none =>
      let answers := c.dispatch s period user
      let asked := .received s period :: answers.events
      match combine c.mode s.messageId answers.motion answers.torque with
      | .error e =>
        .ended ⟨.error e, { c with receiver, phase := .validate }, link, answers.user, asked⟩
      | .ok command =>
        match Link.send .realtime command.encode link with
        | (.error e, link) =>
          .ended ⟨.error (.link e), { c with receiver, phase := .send }, link, answers.user, asked⟩
        | (.ok (), link) =>
          let sent := { c with receiver, phase := .send, commandsSent := c.commandsSent + 1 }
          if command.finished then
            .ended ⟨.ok (), { sent with phase := .finishing }, link, answers.user,
              asked ++ [.sent command]⟩
          else .again sent link answers.user (asked ++ [.sent command])

theorem idsLeft_lt_of_cycle {c c' : ControlLoop ρ} {link link' : σ} {user user' : ρ}
    {events : List Event} (h : c.cycle link user = .again c' link' user' events) :
    c'.receiver.idsLeft < c.receiver.idsLeft := by
  unfold cycle at h
  split at h
  · cases h
  · next s period receiver l hn =>
      split at h
      · cases h
      · simp only at h
        split at h
        · cases h
        · split at h
          · cases h
          · split at h
            · cases h
            · cases h
              exact Receiver.idsLeft_lt_of_next hn

def cycles (c : ControlLoop ρ) (link : σ) (user : ρ) : Run σ ρ :=
  match _h : c.cycle link user with
  | .ended run => run
  | .again c link user events => (cycles c link user).after events
termination_by c.receiver.idsLeft
decreasing_by exact idsLeft_lt_of_cycle _h

theorem cycles_of_ended {c : ControlLoop ρ} {link : σ} {user : ρ} {run : Run σ ρ}
    (h : c.cycle link user = .ended run) : c.cycles link user = run := by
  rw [cycles]
  split <;> simp_all

theorem cycles_of_again {c c' : ControlLoop ρ} {link link' : σ} {user user' : ρ}
    {events : List Event} (h : c.cycle link user = .again c' link' user' events) :
    c.cycles link user = (c'.cycles link' user').after events := by
  rw [cycles]
  split <;> simp_all

/-- Runs a loop to its end. A loop runs once. -/
def run (c : ControlLoop ρ) (link : σ) (user : ρ) : Run σ ρ :=
  if c.phase.isTerminal then ⟨.error (.alreadyEnded c.phase), c, link, user, []⟩
  else
    let ran := c.cycles link user
    match ran.result with
    | .ok () =>
      { ran with
        loop := { ran.loop with phase := .finished }
        events := .started c.mode :: ran.events ++ [.finished ran.loop.commandsSent] }
    | .error e =>
      { ran with
        loop := { ran.loop with phase := .faulted }
        events := .started c.mode :: ran.events ++
          [.faulted ran.loop.phase ran.loop.commandsSent e] }

end ControlLoop

end ArmSession
