import ArmSession.TypedControl
import ArmSession.Proofs.Admission
import ArmSession.Proofs.Calls
import ArmSession.Proofs.Conformance

/-!
# Calls for one kind of command

A callback that can only answer with set points of one kind cannot answer with a command of another.
So the functions that take such callbacks fail neither for the callbacks that they are given nor for
the kind of a command: what is left are values that are not finite, and faults of the controller.
-/

namespace ArmSession

namespace ControlLoop

structure AnswersInKind {ρ : Type} (c : ControlLoop ρ) : Prop where
  motion : ∀ f k, c.motion = some f → c.mode.motion = some k →
    ∀ s period user, (f s period user).1.kind = .motion k
  torque : ∀ f, c.torque = some f → ∀ s period user, (f s period user).1.kind = .torques

def NonFiniteIn (calls : List Call) (e : Failure) : Prop :=
  ∃ call ∈ calls, call.answer.isFinite = false ∧ e = .nonFinite call.answer.kind

def FaultIn (received : List (RobotState × Duration)) (e : Failure) : Prop :=
  ∃ x fault, received.getLast? = some x ∧ x.1.fault = some fault ∧ e = .controllerFault fault

variable {σ ρ : Type} {c : ControlLoop ρ} {user : ρ}

theorem nonFinite_of_checkCommand {mode : Mode} {expected : CommandKind} {a : Command}
    {e : Failure} (hkind : a.kind = expected) (h : checkCommand mode expected a = .error e) :
    a.isFinite = false ∧ e = .nonFinite a.kind := by
  rcases checkCommand_eq_error h with ⟨hother, -⟩ | ⟨-, hfinite, he⟩
  · exact absurd hkind hother
  · exact ⟨hfinite, he⟩

/-- Answers of the right kinds can only be refused for their values. -/
theorem AnswersInKind.nonFinite_of_combine (hc : AnswersInKind c) {s : RobotState}
    {period : Duration} {e : Failure}
    (h : combine c.mode s.messageId (c.dispatch s period user).motion
      (c.dispatch s period user).torque = .error e) :
    NonFiniteIn ((c.dispatch s period user).events.filterMap Event.called?) e := by
  rw [filterMap_called_dispatch, slotCalls]
  rcases combine_eq_error h with hmotion | ⟨_, -, htorque⟩
  · obtain ⟨k, a, hk, ha, hcheck⟩ := motionPart_eq_error hmotion
    rw [ha]
    rw [dispatch_motion] at ha
    obtain ⟨f, hf, rfl⟩ := Option.map_eq_some_iff.1 ha
    exact ⟨_, List.mem_append_left _ List.mem_cons_self,
      nonFinite_of_checkCommand (hc.motion f k hf hk ..) hcheck⟩
  · obtain ⟨a, ha, hcheck⟩ := torquePart_eq_error htorque
    rw [ha]
    rw [dispatch_torque] at ha
    obtain ⟨f, hf, rfl⟩ := Option.map_eq_some_iff.1 ha
    exact ⟨_, List.mem_append_right _ List.mem_cons_self,
      nonFinite_of_checkCommand (hc.torque f hf ..) hcheck⟩

variable [Link σ] {link : σ} {run : Run σ ρ}

theorem Breaks.control_failure (h : Breaks c link user run) (hc : AnswersInKind c) {e : Failure}
    (he : run.result = .error e) (hkind : e.kind = .control) :
    FaultIn run.received e ∨ NonFiniteIn run.calls e := by
  cases h with
  | receive failed =>
      cases he
      cases hkind
  | take arrived failed =>
      cases he
      rw [Receiver.kind_of_take_error failed] at hkind
      cases hkind
  | fault arrived taken failed =>
      cases he
      exact .inl ⟨_, _, rfl, failed, rfl⟩
  | combine arrived taken unfaulted failed =>
      cases he
      exact .inr (hc.nonFinite_of_combine failed)
  | send arrived taken unfaulted combined failed =>
      cases he
      cases hkind

theorem Course.control_failure {xs : List (Exchange ρ)} (h : Course c link user xs run)
    (hc : AnswersInKind c) {e : Failure} (he : run.result = .error e) (hkind : e.kind = .control) :
    FaultIn run.received e ∨ NonFiniteIn run.calls e := by
  induction h with
  | broken last => exact last.control_failure hc he hkind
  | finished => cases he
  | @again _ _ _ _ x _ _ run _ _ _ ih =>
      rcases ih ⟨hc.motion, hc.torque⟩ he with ⟨y, fault, hy, hfault⟩ | ⟨call, hcall, hanswer⟩
      · refine .inl ⟨y, fault, ?_, hfault⟩
        rw [Run.received, Run.after, List.filterMap_append, List.getLast?_append, ← Run.received,
          hy]
        rfl
      · refine .inr ⟨call, ?_, hanswer⟩
        rw [Run.calls, Run.after, List.filterMap_append]
        exact List.mem_append_right _ hcall

theorem control_failure_run (hphase : c.phase.isTerminal = false) (hc : AnswersInKind c)
    {e : Failure} (he : (c.run link user).result = .error e) (hkind : e.kind = .control) :
    FaultIn (c.run link user).received e ∨ NonFiniteIn (c.run link user).calls e := by
  obtain ⟨xs, hxs⟩ := exists_course c link user
  rw [received_run hphase, calls_run hphase]
  rw [run_eq hphase] at he
  exact hxs.control_failure hc he hkind

theorem commands_conform (hphase : c.phase.isTerminal = false) (hc : Fits c) (link : σ)
    (user : ρ) : ∀ command ∈ (c.run link user).commands,
      RobotCommand.decode command.encode = .ok command ∧
        command.motion.map (·.kind) = c.mode.motion ∧
        command.torques.isSome = c.mode.torque := by
  obtain ⟨xs, hxs⟩ := exists_course c link user
  rw [commands_run hphase, hxs.commands_eq, List.forall_mem_map]
  intro x hx
  obtain ⟨c', _, _, _, _, hexchange, hmode, hmotion, htorque⟩ := hxs.exists_exchanges hx
  have hconforms := hexchange.conforms (hc.of_eq hmode hmotion htorque)
  rw [hmode] at hconforms
  exact ⟨hconforms.decoded, hconforms.motionKind, hconforms.torqueUsed⟩

end ControlLoop

/-- A call of a function for one kind of command, with the callbacks that it takes. -/
inductive TypedCall (ρ : Type)
  | torques (torque : SetpointCallback ρ jointCount)
  | jointPositions (motion : SetpointCallback ρ jointCount)
  | jointVelocities (motion : SetpointCallback ρ jointCount)
  | cartesianPose (motion : SetpointCallback ρ poseSize)
  | cartesianVelocities (motion : SetpointCallback ρ twistSize)
  | torquesAndJointPositions (torque motion : SetpointCallback ρ jointCount)
  | torquesAndJointVelocities (torque motion : SetpointCallback ρ jointCount)
  | torquesAndCartesianPose (torque : SetpointCallback ρ jointCount)
      (motion : SetpointCallback ρ poseSize)
  | torquesAndCartesianVelocities (torque : SetpointCallback ρ jointCount)
      (motion : SetpointCallback ρ twistSize)

namespace TypedCall

variable {κ σ ρ : Type}

def perform [Link σ] (s : Session κ σ) : TypedCall ρ → ρ → Outcome κ σ ρ Unit
  | torques torque => s.controlTorques torque
  | jointPositions motion => s.controlJointPositions motion
  | jointVelocities motion => s.controlJointVelocities motion
  | cartesianPose motion => s.controlCartesianPose motion
  | cartesianVelocities motion => s.controlCartesianVelocities motion
  | torquesAndJointPositions torque motion => s.controlTorquesAndJointPositions torque motion
  | torquesAndJointVelocities torque motion => s.controlTorquesAndJointVelocities torque motion
  | torquesAndCartesianPose torque motion => s.controlTorquesAndCartesianPose torque motion
  | torquesAndCartesianVelocities torque motion =>
    s.controlTorquesAndCartesianVelocities torque motion

def motion? : TypedCall ρ → Option ((kind : MotionKind) × SetpointCallback ρ kind.size)
  | torques _ => none
  | jointPositions motion => some ⟨.jointPosition, motion⟩
  | jointVelocities motion => some ⟨.jointVelocity, motion⟩
  | cartesianPose motion => some ⟨.cartesianPose, motion⟩
  | cartesianVelocities motion => some ⟨.cartesianVelocity, motion⟩
  | torquesAndJointPositions _ motion => some ⟨.jointPosition, motion⟩
  | torquesAndJointVelocities _ motion => some ⟨.jointVelocity, motion⟩
  | torquesAndCartesianPose _ motion => some ⟨.cartesianPose, motion⟩
  | torquesAndCartesianVelocities _ motion => some ⟨.cartesianVelocity, motion⟩

def torque? : TypedCall ρ → Option (SetpointCallback ρ jointCount)
  | torques torque => some torque
  | torquesAndJointPositions torque _ => some torque
  | torquesAndJointVelocities torque _ => some torque
  | torquesAndCartesianPose torque _ => some torque
  | torquesAndCartesianVelocities torque _ => some torque
  | _ => none

variable (call : TypedCall ρ)

def motionKind : Option MotionKind := call.motion?.map Sigma.fst

def mode : Mode := ⟨call.motionKind, call.torque?.isSome⟩

def motionSlot : Option (Callback ρ) :=
  call.motion?.map fun motion => .answering (.ofSetpoint motion.1) motion.2

def torqueSlot : Option (Callback ρ) := call.torque?.map (.answering .torques)

def callbacks : List (Slot × Callback ρ) :=
  (call.motionSlot.map (Slot.motion, ·)).toList ++ (call.torqueSlot.map (Slot.torque, ·)).toList

/-- Each of the nine functions is control in the mode, and with the callbacks, that it is for. -/
theorem perform_eq [Link σ] (s : Session κ σ) (user : ρ) :
    call.perform s user = s.control call.mode call.motionSlot call.torqueSlot user := by
  cases call <;> rfl

theorem not_misfit : ¬call.mode.Misfit call.motionSlot call.torqueSlot := by
  cases call <;> simp [Mode.Misfit, mode, motionKind, motionSlot, torqueSlot, motion?, torque?,
    Mode.readOnly]

theorem answersInKind (s : Session κ σ) :
    (s.loop call.mode call.motionSlot call.torqueSlot).AnswersInKind := by
  refine ⟨?_, ?_⟩
  · intro f k hf hk s period user
    obtain ⟨motion, hmotion, rfl⟩ := Option.map_eq_some_iff.1 hf
    have hkind : call.motionKind = some k := hk
    rw [motionKind, hmotion] at hkind
    cases hkind
    rfl
  · intro f hf s period user
    obtain ⟨torque, -, rfl⟩ := Option.map_eq_some_iff.1 hf
    rfl

end TypedCall

structure TypedCall.KeepsKind {κ ρ : Type} (call : TypedCall ρ) (s : Session κ ScriptedLink)
    (user : ρ) (o : Outcome κ ScriptedLink ρ Unit) : Prop where
  valid : ∀ e, o.result = .error e → e.kind ≠ .invalidArgument
  matched : ∀ actual expected mode, o.result ≠ .error (.wrongCommand actual expected mode)
  control : ∀ e, o.result = .error e → e.kind = .control →
    ControlLoop.FaultIn (o.events.filterMap Event.received?) e ∨
      ControlLoop.NonFiniteIn (o.events.filterMap Event.called?) e
  sent : ∃ commands : List RobotCommand,
    o.session.link.sent = s.link.sent ++ commands.map (fun c => (.realtime, c.encode)) ∧
      ∀ c ∈ commands, RobotCommand.decode c.encode = .ok c ∧
        c.motion.map (·.kind) = call.motionKind ∧ c.torques.isSome = call.torque?.isSome
  /-- In each cycle the motion callback is asked first, and then the torque callback. -/
  called : ∃ cycles faulted, o.events.filterMap Event.received? = cycles ++ faulted ∧
    (∀ x ∈ faulted, x.1.fault ≠ none) ∧
      (o.events.filterMap Event.called?, o.user) = askEach call.callbacks cycles user

namespace TypedCall

variable {κ ρ : Type} (call : TypedCall ρ) {s : Session κ ScriptedLink}

/-- Without scheduling, nothing is asked or sent. -/
theorem keepsKind_of_refusal (h : s.Unscheduled call.mode) (user : ρ) :
    call.KeepsKind s user (call.perform s user) := by
  obtain ⟨htorque, hpolicy, reason, hreason⟩ := h
  rw [perform_eq, Session.control_of_refused call.not_misfit htorque hpolicy hreason]
  refine ⟨?_, nofun, ?_, ⟨[], (List.append_nil _).symm, nofun⟩, ⟨[], [], rfl, nofun, rfl⟩⟩
  · intro e he
    cases he
    exact nofun
  · intro e he hkind
    cases he
    cases hkind

theorem keepsKind_of_grant (h : ¬s.Unscheduled call.mode) (user : ρ) :
    call.KeepsKind s user (call.perform s user) := by
  let c := s.loop call.mode call.motionSlot call.torqueSlot
  have hphase : c.phase.isTerminal = false := rfl
  have hfits : ControlLoop.Fits c :=
    ControlLoop.fits_of_new (ControlLoop.new_of_fit call.not_misfit s.config.cycleTimeout)
  have hcontrol : ∀ e, (c.run s.link user).result = .error e → e.kind = .control →
      ControlLoop.FaultIn (c.run s.link user).received e ∨
        ControlLoop.NonFiniteIn (c.run s.link user).calls e :=
    fun e he hkind => ControlLoop.control_failure_run hphase (call.answersInKind s) he hkind
  obtain ⟨asked, hasks⟩ := ControlLoop.exists_asks_run hphase s.link user
  obtain ⟨faulted, hreceived, -, hfaulted⟩ := hasks.received
  rw [perform_eq, Session.control_of_admitted call.not_misfit h]
  refine ⟨?_, ?_, hcontrol, ?_, ?_⟩
  · intro e he hkind
    have hcycle := ControlLoop.kind_of_run_error hphase he
    rw [hkind] at hcycle
    cases hcycle
  · intro actual expected mode he
    rcases hcontrol _ he rfl with ⟨_, _, -, -, hfault⟩ | ⟨_, -, -, hvalue⟩
    · cases hfault
    · cases hvalue
  · exact ⟨(c.run s.link user).commands, ControlLoop.sent_run hphase s.link user,
      ControlLoop.commands_conform hphase hfits s.link user⟩
  · exact ⟨asked.map Intake.arrival, faulted, hreceived, hfaulted, hasks.called⟩

/-- None of the nine functions fails for the callbacks that it is given or for the kind of a
command, and none sends a command that it is not for. -/
theorem perform_keepsKind (s : Session κ ScriptedLink) (user : ρ) :
    call.KeepsKind s user (call.perform s user) := by
  by_cases h : s.Unscheduled call.mode
  · exact call.keepsKind_of_refusal h user
  · exact call.keepsKind_of_grant h user

end TypedCall

end ArmSession
