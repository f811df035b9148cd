import ArmSession.Proofs.Establishment

/-!
# Which control calls are let through

A control call may be refused for its callbacks, and then for realtime scheduling, before anything
of the session is used. A call that is refused leaves the session as it was, but for a scheduler
that may have been asked once more. A call that is let through comes to what its loop comes to on
the link of the session.
-/

namespace ArmSession

/-- Whether a cycle can fail in this way. -/
def FailureKind.ofCycle : FailureKind → Bool
  | network => true
  | protocol => true
  | control => true
  | _ => false

theorem Receiver.kind_of_take_error {r : Receiver} {m : Bytes} {e : Failure}
    (h : r.take m = .error e) : e.kind = .protocol := by
  rcases take_eq_error h with ⟨cause, -, rfl⟩ | ⟨s, id, -, -, rfl⟩
  · rfl
  · rfl

namespace ControlLoop

theorem kind_of_checkCommand_error {mode : Mode} {expected : CommandKind} {a : Command}
    {e : Failure} (h : checkCommand mode expected a = .error e) : e.kind = .control := by
  rcases checkCommand_eq_error h with ⟨-, rfl⟩ | ⟨-, -, rfl⟩
  · rfl
  · rfl

theorem kind_of_combine_error {mode : Mode} {id : UInt64} {a b : Option Command} {e : Failure}
    (h : combine mode id a b = .error e) : e.kind = .control := by
  rcases combine_eq_error h with hmotion | ⟨_, -, htorque⟩
  · obtain ⟨_, _, -, -, hcheck⟩ := motionPart_eq_error hmotion
    exact kind_of_checkCommand_error hcheck
  · obtain ⟨_, -, hcheck⟩ := torquePart_eq_error htorque
    exact kind_of_checkCommand_error hcheck

variable {σ ρ : Type} [Link σ] {c : ControlLoop ρ} {link : σ} {user : ρ} {run : Run σ ρ}

theorem Breaks.kind_of_error (h : Breaks c link user run) {e : Failure}
    (he : run.result = .error e) : e.kind.ofCycle = true := by
  cases h with
  | receive failed => cases he; rfl
  | take arrived failed => cases he; rw [Receiver.kind_of_take_error failed]; rfl
  | fault arrived taken failed => cases he; rfl
  | combine arrived taken unfaulted failed => cases he; rw [kind_of_combine_error failed]; rfl
  | send arrived taken unfaulted combined failed => cases he; rfl

theorem Course.kind_of_error {xs : List (Exchange ρ)} (h : Course c link user xs run) {e : Failure}
    (he : run.result = .error e) : e.kind.ofCycle = true := by
  induction h with
  | broken last => exact last.kind_of_error he
  | finished => cases he
  | again _ _ _ ih => exact ih he

theorem kind_of_run_error (hphase : c.phase.isTerminal = false) {e : Failure}
    (he : (c.run link user).result = .error e) : e.kind.ofCycle = true := by
  obtain ⟨xs, hxs⟩ := exists_course c link user
  rw [run_eq hphase] at he
  exact hxs.kind_of_error he

end ControlLoop

section

variable {κ σ ρ : Type}

/-- The callbacks are not those that the mode uses, or it uses none. -/
def Mode.Misfit (mode : Mode) (motion torque : Option (Callback ρ)) : Prop :=
  mode = .readOnly ∨ mode.motion.isSome ≠ motion.isSome ∨ mode.torque ≠ torque.isSome

/-- Torques are to be used, and the scheduling that the policy insists on is refused. -/
def Session.Unscheduled (s : Session κ σ) (mode : Mode) : Prop :=
  mode.torque = true ∧ s.config.realtime = .enforce ∧
    ∃ reason, s.scheduler.elevate.1 = .error reason

def Session.loop (s : Session κ σ) (mode : Mode) (motion torque : Option (Callback ρ)) :
    ControlLoop ρ :=
  ⟨mode, motion, torque, .new s.config.cycleTimeout, .idle, 0⟩

theorem Mode.isReadOnly_iff {mode : Mode} : mode.isReadOnly = true ↔ mode = .readOnly := by
  obtain ⟨motion, torque⟩ := mode
  cases motion <;> cases torque <;> simp [isReadOnly, readOnly]

theorem ControlLoop.new_of_fit {mode : Mode} {motion torque : Option (Callback ρ)}
    (h : ¬mode.Misfit motion torque) (timeout : Duration) :
    new mode motion torque timeout = .ok ⟨mode, motion, torque, .new timeout, .idle, 0⟩ := by
  simp only [Mode.Misfit, not_or, ne_eq, not_not] at h
  obtain ⟨hused, hmotion, htorque⟩ := h
  rw [← Mode.isReadOnly_iff, Bool.not_eq_true] at hused
  exact new_eq_ok_iff.2 ⟨hused, hmotion, htorque, rfl⟩

theorem ControlLoop.new_of_misfit {mode : Mode} {motion torque : Option (Callback ρ)}
    (h : mode.Misfit motion torque) (timeout : Duration) :
    ∃ e, new mode motion torque timeout = .error e ∧ e.kind = .invalidArgument := by
  unfold new
  split_ifs with hused hmotion htorque
  · exact ⟨_, rfl, rfl⟩
  · exact ⟨_, rfl, rfl⟩
  · exact ⟨_, rfl, rfl⟩
  · rcases h with hreadOnly | hne | hne
    · exact absurd (Mode.isReadOnly_iff.2 hreadOnly) hused
    · exact absurd hne hmotion
    · exact absurd hne htorque

end

namespace Scheduler

variable {s : Scheduler} {policy : Policy}

/-- From now on the two give the same answers. -/
def Alike (a b : Scheduler) : Prop := ∀ n, a.answer (a.requests + n) = b.answer (b.requests + n)

theorem Alike.refl (s : Scheduler) : s.Alike s := fun _ => rfl

theorem Alike.answer_eq {a b : Scheduler} (h : a.Alike b) : a.elevate.1 = b.elevate.1 := h 0

theorem Alike.elevate {a b : Scheduler} (h : a.Alike b) : a.elevate.2.Alike b.elevate.2 := by
  intro n
  have hnext := h (1 + n)
  rwa [← Nat.add_assoc, ← Nat.add_assoc] at hnext

theorem scheduler_acquire (policy : Policy) (s : Scheduler) :
    (s.acquire policy).scheduler = s.elevate.2 := by
  unfold acquire elevate
  cases s.answer s.requests with
  | ok => rfl
  | error => cases policy <;> rfl

theorem acquire_of_refused {reason : String} (hpolicy : policy = .enforce)
    (h : s.elevate.1 = .error reason) :
    s.acquire policy = ⟨.error (.realtimeRefused reason), s.elevate.2, []⟩ := by
  have hanswer : s.answer s.requests = .error reason := h
  unfold acquire elevate
  rw [hanswer, hpolicy]

theorem acquire_of_granted (h : ¬(policy = .enforce ∧ ∃ reason, s.elevate.1 = .error reason)) :
    (s.acquire policy).result = .ok () := by
  unfold acquire elevate
  cases hanswer : s.answer s.requests with
  | ok => rfl
  | error reason =>
      cases policy with
      | ignore => rfl
      | enforce => exact absurd ⟨rfl, reason, hanswer⟩ h

theorem acquire_congr {other : Scheduler} (h : s.elevate.1 = other.elevate.1) (policy : Policy) :
    (s.acquire policy).result = (other.acquire policy).result ∧
      (s.acquire policy).log = (other.acquire policy).log := by
  have hanswer : s.answer s.requests = other.answer other.requests := h
  unfold acquire elevate
  rw [hanswer]
  cases other.answer other.requests with
  | ok => exact ⟨rfl, rfl⟩
  | error => cases policy <;> exact ⟨rfl, rfl⟩

end Scheduler

section

variable {κ σ ρ α : Type}

def Session.withScheduler (s : Session κ σ) (scheduler : Scheduler) : Session κ σ :=
  { s with scheduler }

def Outcome.withScheduler (o : Outcome κ σ ρ α) (scheduler : Scheduler) : Outcome κ σ ρ α :=
  { o with session := o.session.withScheduler scheduler }

def Outcome.SameButScheduler (o o' : Outcome κ σ ρ α) : Prop :=
  ∃ scheduler, o' = o.withScheduler scheduler

def Operation.asks : Operation ρ → Bool
  | call (.control mode _ _) => mode.torque
  | _ => false

end

namespace Session

variable {κ σ ρ : Type} [Link σ] {s : Session κ σ} {mode : Mode}
  {motion torque : Option (Callback ρ)}

theorem control_of_new_error {e : Failure}
    (h : ControlLoop.new mode motion torque s.config.cycleTimeout = .error e) (user : ρ) :
    s.control mode motion torque user = ⟨.error e, s, user, [], [], []⟩ := by
  unfold control
  rw [h]

theorem control_of_refused {reason : String} (hfit : ¬mode.Misfit motion torque)
    (htorque : mode.torque = true) (hpolicy : s.config.realtime = .enforce)
    (hrefused : s.scheduler.elevate.1 = .error reason) (user : ρ) :
    s.control mode motion torque user = ⟨.error (.realtimeRefused reason),
      s.withScheduler s.scheduler.elevate.2, user, [], [], []⟩ := by
  unfold control
  rw [ControlLoop.new_of_fit hfit, htorque, Scheduler.acquire_of_refused hpolicy hrefused]
  rfl

/-- The log of the scheduling comes before that of the loop. -/
theorem control_of_admitted (hfit : ¬mode.Misfit motion torque) (h : ¬s.Unscheduled mode)
    (user : ρ) : s.control mode motion torque user =
      (s.withScheduler (if mode.torque then s.scheduler.elevate.2 else s.scheduler)).runLoop
        (s.loop mode motion torque) user
        (if mode.torque then (s.scheduler.acquire s.config.realtime).log else []) := by
  unfold control
  rw [ControlLoop.new_of_fit hfit]
  cases htorque : mode.torque with
  | false => rfl
  | true =>
      have hgranted : (s.scheduler.acquire s.config.realtime).result = .ok () :=
        Scheduler.acquire_of_granted fun hrefused => h ⟨htorque, hrefused⟩
      dsimp only
      rw [if_pos rfl, if_pos rfl, if_pos rfl, hgranted, Scheduler.scheduler_acquire]
      rfl

theorem ofCycle_of_runLoop {kind : FailureKind} {user : ρ} {log : List Log.Line}
    (h : failureKind? (s.runLoop (s.loop mode motion torque) user log).result = some kind) :
    kind.ofCycle = true := by
  cases hresult : (s.runLoop (s.loop mode motion torque) user log).result with
  | ok _ =>
      rw [hresult] at h
      cases h
  | error e =>
      rw [hresult] at h
      cases h
      exact ControlLoop.kind_of_run_error rfl hresult

theorem control_withScheduler {other : Scheduler}
    (h : mode.torque = true → s.scheduler.Alike other) (user : ρ) : ∃ next,
    (s.withScheduler other).control mode motion torque user =
        (s.control mode motion torque user).withScheduler next ∧
      (s.scheduler.Alike other →
        (s.control mode motion torque user).session.scheduler.Alike next) := by
  have hsame : (s.withScheduler other).Unscheduled mode ↔ s.Unscheduled mode := by
    refine and_congr_right fun htorque => and_congr_right fun _ => ?_
    rw [(h htorque).answer_eq]
    rfl
  by_cases hfit : mode.Misfit motion torque
  · obtain ⟨e, he, -⟩ := ControlLoop.new_of_misfit hfit s.config.cycleTimeout
    have hother : ControlLoop.new mode motion torque (s.withScheduler other).config.cycleTimeout =
      .error e := he
    rw [control_of_new_error he, control_of_new_error hother]
    exact ⟨other, rfl, id⟩
  · by_cases hrefused : s.Unscheduled mode
    · obtain ⟨htorque, hpolicy, reason, hreason⟩ := hrefused
      have hother : (s.withScheduler other).scheduler.elevate.1 = .error reason :=
        (h htorque).answer_eq.symm.trans hreason
      rw [control_of_refused hfit htorque hpolicy hreason,
        control_of_refused (s := s.withScheduler other) hfit htorque hpolicy hother]
      exact ⟨other.elevate.2, rfl, Scheduler.Alike.elevate⟩
    · rw [control_of_admitted hfit hrefused, control_of_admitted hfit (hsame.not.2 hrefused)]
      cases htorque : mode.torque with
      | false => exact ⟨other, rfl, id⟩
      | true =>
          have hlog : ((s.withScheduler other).scheduler.acquire
              (s.withScheduler other).config.realtime).log =
                (s.scheduler.acquire s.config.realtime).log :=
            (Scheduler.acquire_congr (h htorque).answer_eq s.config.realtime).2.symm
          rw [if_pos rfl, if_pos rfl, if_pos rfl, if_pos rfl, hlog]
          exact ⟨other.elevate.2, rfl, Scheduler.Alike.elevate⟩

theorem call_withScheduler {other : Scheduler} {call : LinkUse ρ}
    (h : (Operation.call call).asks = true → s.scheduler.Alike other) (user : ρ) : ∃ next,
    (s.withScheduler other).call user call = (s.call user call).withScheduler next ∧
      (s.scheduler.Alike other → (s.call user call).session.scheduler.Alike next) := by
  cases call with
  | control mode motion torque =>
      obtain ⟨next, hnext, halike⟩ := control_withScheduler h user
      exact ⟨next, congrArg (Outcome.map fun _ => none) hnext, halike⟩
  | read goesOn => exact ⟨other, rfl, id⟩
  | readOnce => exact ⟨other, rfl, id⟩

variable [Connector κ σ]

theorem reconnect_withScheduler (s : Session κ σ) (other : Scheduler) :
    (s.withScheduler other).reconnect = s.reconnect.withScheduler other ∧
      s.reconnect.session.scheduler = s.scheduler := by
  unfold withScheduler reconnect
  dsimp only
  cases (Opening.of s.connector s.address s.config).result with
  | error e => exact ⟨rfl, rfl⟩
  | ok opened => exact ⟨rfl, rfl⟩

theorem perform_withScheduler {other : Scheduler} {operation : Operation ρ}
    (h : operation.asks = true → s.scheduler.Alike other) (user : ρ) : ∃ next,
    (s.withScheduler other).perform user operation =
        (s.perform user operation).withScheduler next ∧
      (s.scheduler.Alike other → (s.perform user operation).session.scheduler.Alike next) := by
  cases operation with
  | call call => exact call_withScheduler h user
  | reconnect =>
      obtain ⟨hother, hkept⟩ := s.reconnect_withScheduler other
      refine ⟨other, ?_, fun halike => ?_⟩
      · unfold perform
        rw [hother]
        rfl
      · change s.reconnect.session.scheduler.Alike other
        rwa [hkept]
  | reschedule scheduler => exact ⟨scheduler, rfl, fun _ => .refl scheduler⟩

theorem performs_withScheduler {other : Scheduler} {operations : List (Operation ρ)}
    (h : ∀ operation ∈ operations, operation.asks = true → s.scheduler.Alike other) (user : ρ) :
    List.Forall₂ Outcome.SameButScheduler (s.performs user operations)
      ((s.withScheduler other).performs user operations) := by
  induction operations generalizing s other user with
  | nil => exact .nil
  | cons operation operations ih =>
      obtain ⟨hfirst, hrest⟩ := List.forall_mem_cons.1 h
      obtain ⟨next, hnext, halike⟩ := perform_withScheduler hfirst user
      rw [performs, performs, hnext]
      refine .cons ⟨next, rfl⟩ (ih ?_ _)
      intro operation hmem hasks
      exact halike (hrest operation hmem hasks)

end Session

section

variable {κ σ ρ : Type} [Link σ] [Connector κ σ]

structure Admission (s : Session κ σ) (mode : Mode) (motion torque : Option (Callback ρ)) (user : ρ)
    (o : Outcome κ σ ρ Unit) : Prop where
  invalid_iff : failureKind? o.result = some .invalidArgument ↔ mode.Misfit motion torque
  realtime_iff : failureKind? o.result = some .realtime ↔
    ¬mode.Misfit motion torque ∧ s.Unscheduled mode
  /-- The scheduler is not asked before the callbacks are found to fit. -/
  misfit : mode.Misfit motion torque → o.session = s
  asked : ¬mode.Misfit motion torque → mode.torque = true →
    o.session.scheduler = s.scheduler.elevate.2
  unasked : ¬mode.Misfit motion torque → mode.torque = false → o.session.scheduler = s.scheduler
  /-- No callback is called and the link is not used. -/
  refused : mode.Misfit motion torque ∨ s.Unscheduled mode →
    o.user = user ∧ o.events = [] ∧ o.session = s.withScheduler o.session.scheduler
  /-- What follows is as if the call had not been made, as far as the scheduler, where it is asked
  again, answers as it would have. -/
  following : mode.Misfit motion torque ∨ s.Unscheduled mode →
    ∀ {τ : Type} (user : τ) (operations : List (Operation τ)),
      (∀ operation ∈ operations, operation.asks = true →
        s.scheduler.Alike o.session.scheduler) →
      List.Forall₂ Outcome.SameButScheduler (s.performs user operations)
        (o.session.performs user operations)
  admitted : ¬mode.Misfit motion torque → ¬s.Unscheduled mode →
    ∃ c, ControlLoop.new mode motion torque s.config.cycleTimeout = .ok c ∧
      let run := c.run s.link user
      o.result = run.result ∧ o.user = run.user ∧ o.events = run.events ∧
        o.session = { s with link := run.link, scheduler := o.session.scheduler }
  /-- A policy that does not insist on scheduling has the same run with any scheduler. -/
  ignored : s.config.realtime = .ignore → ∀ other : Scheduler,
    let o' := (s.withScheduler other).control mode motion torque user
    o'.result = o.result ∧ o'.user = o.user ∧ o'.events = o.events ∧
      o'.session.link = o.session.link

namespace Session

variable {s : Session κ σ} {mode : Mode} {motion torque : Option (Callback ρ)}

theorem admission_of_misfit (h : mode.Misfit motion torque) (user : ρ) :
    Admission s mode motion torque user (s.control mode motion torque user) := by
  obtain ⟨e, he, hkind⟩ := ControlLoop.new_of_misfit h s.config.cycleTimeout
  rw [control_of_new_error he]
  exact {
    invalid_iff := ⟨fun _ => h, fun _ => congrArg some hkind⟩
    realtime_iff := by
      refine ⟨fun hrealtime => ?_, fun hfit => absurd h hfit.1⟩
      rw [failureKind?, hkind] at hrealtime
      cases hrealtime
    misfit := fun _ => rfl
    asked := fun hfit => absurd h hfit
    unasked := fun hfit => absurd h hfit
    refused := fun _ => ⟨rfl, rfl, rfl⟩
    following := fun _ _ user operations halike =>
      performs_withScheduler (s := s) halike user
    admitted := fun hfit => absurd h hfit
    ignored := by
      intro _ other
      have hother : ControlLoop.new mode motion torque
        (s.withScheduler other).config.cycleTimeout = .error e := he
      rw [control_of_new_error hother]
      exact ⟨rfl, rfl, rfl, rfl⟩ }

theorem admission_of_refusal (hfit : ¬mode.Misfit motion torque) (h : s.Unscheduled mode)
    (user : ρ) : Admission s mode motion torque user (s.control mode motion torque user) := by
  obtain ⟨htorque, hpolicy, reason, hreason⟩ := h
  rw [control_of_refused hfit htorque hpolicy hreason]
  exact {
    invalid_iff := by
      refine ⟨fun hinvalid => ?_, fun hmisfit => absurd hmisfit hfit⟩
      cases hinvalid
    realtime_iff := ⟨fun _ => ⟨hfit, htorque, hpolicy, reason, hreason⟩, fun _ => rfl⟩
    misfit := fun hmisfit => absurd hmisfit hfit
    asked := fun _ _ => rfl
    unasked := by
      intro _ hidle
      rw [htorque] at hidle
      cases hidle
    refused := fun _ => ⟨rfl, rfl, rfl⟩
    following := fun _ _ user operations halike => performs_withScheduler halike user
    admitted := fun _ hgranted => absurd ⟨htorque, hpolicy, reason, hreason⟩ hgranted
    ignored := by
      intro hignore
      rw [hpolicy] at hignore
      cases hignore }

theorem admission_of_grant (hfit : ¬mode.Misfit motion torque) (h : ¬s.Unscheduled mode)
    (user : ρ) : Admission s mode motion torque user (s.control mode motion torque user) := by
  rw [control_of_admitted hfit h]
  exact {
    invalid_iff := by
      refine ⟨fun hinvalid => ?_, fun hmisfit => absurd hmisfit hfit⟩
      cases ofCycle_of_runLoop hinvalid
    realtime_iff := by
      refine ⟨fun hrealtime => ?_, fun hrefused => absurd hrefused.2 h⟩
      cases ofCycle_of_runLoop hrealtime
    misfit := fun hmisfit => absurd hmisfit hfit
    asked := fun _ htorque => if_pos htorque
    unasked := fun _ hidle => if_neg (Bool.eq_false_iff.1 hidle)
    refused := fun hrefused => absurd (hrefused.resolve_left hfit) h
    following := fun hrefused => absurd (hrefused.resolve_left hfit) h
    admitted := fun _ _ => ⟨_, ControlLoop.new_of_fit hfit _, rfl, rfl, rfl, rfl⟩
    ignored := by
      intro hignore other
      have hgranted : ¬(s.withScheduler other).Unscheduled mode := by
        rintro ⟨-, hpolicy, -⟩
        cases hignore.symm.trans hpolicy
      rw [control_of_admitted hfit hgranted]
      exact ⟨rfl, rfl, rfl, rfl⟩ }

/-- A control call is refused before it touches anything, or it is its loop on the link. -/
theorem control_admission (s : Session κ σ) (mode : Mode) (motion torque : Option (Callback ρ))
    (user : ρ) : Admission s mode motion torque user (s.control mode motion torque user) := by
  by_cases hfit : mode.Misfit motion torque
  · exact admission_of_misfit hfit user
  · by_cases hrefused : s.Unscheduled mode
    · exact admission_of_refusal hfit hrefused user
    · exact admission_of_grant hfit hrefused user

end Session

end

/-- Torques are refused for want of a priority, and the next state is read as if nothing had
happened. -/
theorem Session.control_admission_of_refusal :
    let push : Callback Nat := fun _ _ n => (.torques ⟨.zeros jointCount, true⟩, n + 1)
    let s : Session ScriptedConnector ScriptedLink := ⟨.ofLinks [], "robot", .standard,
      .ofStates [.initial], protocolVersion, .always (.error "no permission")⟩
    let o := s.control .torqueOnly none (some push) 0
    failureKind? o.result = some .realtime ∧ o.session.scheduler.requests = 1 ∧ o.user = 0 ∧
      List.Forall₂ Outcome.SameButScheduler (s.performs () [.call .readOnce])
        (o.session.performs () [.call .readOnce]) := by
  intro push s o
  have h := s.control_admission .torqueOnly none (some push) 0
  have hfit : ¬Mode.torqueOnly.Misfit none (some push) := by
    simp [Mode.Misfit, Mode.torqueOnly, Mode.readOnly]
  have hrefused : s.Unscheduled .torqueOnly := ⟨rfl, rfl, _, rfl⟩
  refine ⟨h.realtime_iff.2 ⟨hfit, hrefused⟩, ?_, (h.refused (.inr hrefused)).1, ?_⟩
  · rw [h.asked hfit rfl]
    rfl
  · exact h.following (.inr hrefused) () _ (by simp [Operation.asks])

end ArmSession
