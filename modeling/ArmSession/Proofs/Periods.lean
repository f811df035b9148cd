import ArmSession.Proofs.Admission
import ArmSession.Proofs.Calls
import Mathlib.Data.List.Chain

/-!
# The periods that callbacks are given

The callbacks are told how much time has passed since the state before, by the clock of the
controller. A clock that goes back counts as one that stands still, so the periods add up to the
time that has passed if it never does, and otherwise to no less.
-/

namespace ArmSession

namespace Duration

theorem since_ofMicros (later earlier : UInt64) :
    ∃ micros, (ofMicros later).since (ofMicros earlier) = ofMicros micros := by
  by_cases h : earlier ≤ later
  · refine ⟨later - earlier, ?_⟩
    simp only [since, ofMicros, UInt64.toNat_sub_of_le _ _ h, Nat.sub_mul]
  · refine ⟨0, ?_⟩
    have hlt : later.toNat < earlier.toNat := UInt64.not_le.1 h
    simp only [since, ofMicros, Duration.mk.injEq, UInt64.toNat_zero]
    omega

end Duration

theorem RobotState.time_of_decode {m : Bytes} {s : RobotState} (h : decode m = .ok s) :
    ∃ micros, s.time = .ofMicros micros := by
  unfold decode at h
  split at h
  · cases h
  · next f _ =>
      unfold Fields.check at h
      split at h
      · cases h
      · cases h
        exact ⟨f.micros, rfl⟩

/-- The period of the second cycle is the time from the state of the first to its own, if this time
is not negative. -/
def Follows (x y : RobotState × Duration) : Prop :=
  (y.2.nanos : Int) = max 0 (y.1.time.nanos - x.1.time.nanos)

theorem follows_iff {x y : RobotState × Duration} :
    Follows x y ↔ y.2 = y.1.time.since x.1.time := by
  obtain ⟨s, ⟨period⟩⟩ := y
  simp only [Follows, Duration.since, Duration.mk.injEq]
  omega

def totalNanos : List (RobotState × Duration) → Nat
  | [] => 0
  | x :: cycles => x.2.nanos + totalNanos cycles

section

variable {x last : RobotState × Duration} {cycles : List (RobotState × Duration)}

/-- No time is lost, and none is made up if the clock never goes back. -/
theorem time_of_follows (h : (x :: cycles).IsChain Follows)
    (hlast : (x :: cycles).getLast? = some last) :
    last.1.time.nanos ≤ x.1.time.nanos + totalNanos cycles ∧
      ((x :: cycles).IsChain (fun y z => y.1.time.nanos ≤ z.1.time.nanos) →
        last.1.time.nanos = x.1.time.nanos + totalNanos cycles) := by
  induction cycles generalizing x with
  | nil =>
      cases hlast
      simp [totalNanos]
  | cons y cycles ih =>
      obtain ⟨hfollows, hrest⟩ := List.isChain_cons_cons.1 h
      rw [List.getLast?_cons_cons] at hlast
      obtain ⟨hle, heq⟩ := ih hrest hlast
      have hperiod : y.2.nanos = y.1.time.nanos - x.1.time.nanos := by
        rw [follows_iff.1 hfollows, Duration.since_nanos]
      rw [totalNanos]
      refine ⟨by omega, fun hclock => ?_⟩
      obtain ⟨hforward, hclock⟩ := List.isChain_cons_cons.1 hclock
      have hsum := heq hclock
      omega

end

namespace Receiver.Takes

variable {r r' : Receiver} {xs : List Intake}

theorem period_of_head? (h : Takes r xs r') {x : Intake} (hx : xs.head? = some x) :
    x.period = r.period x.state := by
  cases h with
  | none => cases hx
  | more first rest =>
      cases hx
      exact (accept_eq_ok (take_eq_ok_iff.1 first).2).2.1

/-- Between two states that are taken one after the other, the receiver remembers the first. -/
theorem isChain_follows (h : Takes r xs r') : (xs.map Intake.arrival).IsChain Follows := by
  induction h with
  | none => exact .nil
  | @more r between r' x xs first rest ih =>
      cases xs with
      | nil => exact .singleton _
      | cons y ys =>
          refine List.isChain_cons_cons.2 ⟨follows_iff.2 ?_, ih⟩
          change y.period = y.state.time.since x.state.time
          rw [rest.period_of_head? rfl, period, last_of_take first]

/-- What the receiver knows of time is what messages have said, in whole microseconds. -/
theorem exists_micros (h : Takes r xs r')
    (hlast : ∀ entry, r.last = some entry → ∃ micros, entry.2 = .ofMicros micros) :
    ∀ x ∈ xs, (∃ micros, x.state.time = .ofMicros micros) ∧
      ∃ micros, x.period = .ofMicros micros := by
  induction h with
  | none => exact nofun
  | @more r between r' x xs first rest ih =>
      obtain ⟨micros, htime⟩ := RobotState.time_of_decode (take_eq_ok_iff.1 first).1
      refine List.forall_mem_cons.2 ⟨⟨⟨micros, htime⟩, ?_⟩, ih ?_⟩
      · rw [(accept_eq_ok (take_eq_ok_iff.1 first).2).2.1, period]
        cases hr : r.last with
        | none => exact ⟨0, rfl⟩
        | some entry =>
            obtain ⟨earlier, hentry⟩ := hlast entry hr
            change ∃ micros, x.state.time.since entry.2 = Duration.ofMicros micros
            rw [hentry, htime]
            exact Duration.since_ofMicros micros earlier
      · intro entry hentry
        rw [last_of_take first] at hentry
        cases hentry
        exact ⟨micros, htime⟩

end Receiver.Takes

def Mode.slots (mode : Mode) : List Slot :=
  (mode.motion.map fun _ => Slot.motion).toList ++ if mode.torque then [.torque] else []

theorem ControlLoop.Fits.slots_eq {ρ : Type} {c : ControlLoop ρ} (h : Fits c) :
    c.callbacks.map Prod.fst = c.mode.slots := by
  have hmotion := h.motion
  have htorque := h.torque
  unfold callbacks Mode.slots
  cases hm : c.motion <;> cases ht : c.torque <;> cases hk : c.mode.motion <;> simp_all

structure Paced (mode : Mode) (events : List Event) (cycles : List (RobotState × Duration)) :
    Prop where
  /-- In a cycle all callbacks are given the same state and the same period. -/
  called : (events.filterMap Event.called?).map Call.question =
    cycles.flatMap fun cycle => mode.slots.map fun slot => (slot, cycle)
  /-- They are asked about all states that are accepted, but for a last one with a fault. -/
  received : ∃ faulted, events.filterMap Event.received? = cycles ++ faulted ∧
    faulted.length ≤ 1 ∧ ∀ x ∈ faulted, x.1.fault ≠ none
  first : ∀ x, cycles.head? = some x → x.2 = .zero
  later : cycles.IsChain Follows
  /-- Any time of 64 bits gives a period of 64 bits. -/
  bounded : ∀ x ∈ cycles, (∃ micros, x.1.time = .ofMicros micros) ∧
    ∃ micros, x.2 = .ofMicros micros

/-- From the first cycle up to any other, the periods add up to the time that has passed, or to more
where the clock goes back. -/
structure AddsUp (cycles : List (RobotState × Duration)) : Prop where
  total_eq : ∀ part, part <+: cycles → ∀ x y, part.head? = some x → part.getLast? = some y →
    part.IsChain (fun a b => a.1.time.nanos ≤ b.1.time.nanos) →
      (totalNanos part : Int) = y.1.time.nanos - x.1.time.nanos
  le_total : ∀ part, part <+: cycles → ∀ x y, part.head? = some x → part.getLast? = some y →
    (y.1.time.nanos - x.1.time.nanos : Int) ≤ totalNanos part

section

variable {mode : Mode} {events : List Event} {cycles part : List (RobotState × Duration)}

theorem Paced.totalNanos_eq (h : Paced mode events cycles) {x : RobotState × Duration}
    (hpart : x :: part <+: cycles) : totalNanos (x :: part) = totalNanos part := by
  obtain ⟨rest, rfl⟩ := hpart
  rw [totalNanos, h.first x rfl]
  exact Nat.zero_add _

theorem Paced.addsUp (h : Paced mode events cycles) : AddsUp cycles := by
  refine ⟨?_, ?_⟩
  · intro part hpart x y hx hy hclock
    obtain ⟨part, rfl⟩ := List.head?_eq_some_iff.1 hx
    have hlater := List.IsChain.prefix h.later hpart
    have heq := (time_of_follows hlater hy).2 hclock
    rw [h.totalNanos_eq hpart]
    omega
  · intro part hpart x y hx hy
    obtain ⟨part, rfl⟩ := List.head?_eq_some_iff.1 hx
    have hlater := List.IsChain.prefix h.later hpart
    have hle := (time_of_follows hlater hy).1
    rw [h.totalNanos_eq hpart]
    omega

end

theorem paced_nil (mode : Mode) : Paced mode [] [] :=
  ⟨rfl, ⟨[], rfl, by simp, nofun⟩, nofun, .nil, nofun⟩

theorem ControlLoop.exists_paced {σ ρ : Type} [Link σ] {mode : Mode}
    {motion torque : Option (Callback ρ)} {timeout : Duration} {c : ControlLoop ρ}
    (hnew : new mode motion torque timeout = .ok c) (link : σ) (user : ρ) :
    ∃ cycles, Paced mode (c.run link user).events cycles := by
  have hslots := (fits_of_new hnew).slots_eq
  obtain ⟨-, -, -, rfl⟩ := new_eq_ok_iff.1 hnew
  obtain ⟨asked, hasks⟩ := exists_asks_run (c := ⟨mode, motion, torque, .new timeout, .idle, 0⟩)
    rfl link user
  obtain ⟨r, htakes⟩ := hasks.taken
  have hcalls := congrArg (fun x => x.1.map Call.question) hasks.called
  refine ⟨asked.map Intake.arrival, ?_, hasks.received, ?_, htakes.isChain_follows, ?_⟩
  · refine hcalls.trans ((questions_askEach ..).trans ?_)
    simp only [← hslots, List.map_map]
    rfl
  · intro x hx
    rw [List.head?_map, Option.map_eq_some_iff] at hx
    obtain ⟨y, hy, rfl⟩ := hx
    exact htakes.period_of_head? hy
  · rw [List.forall_mem_map]
    exact htakes.exists_micros nofun

theorem Session.exists_paced_control {κ σ ρ : Type} [Link σ] (s : Session κ σ) (mode : Mode)
    (motion torque : Option (Callback ρ)) (user : ρ) :
    ∃ cycles, Paced mode (s.control mode motion torque user).events cycles := by
  by_cases hfit : mode.Misfit motion torque
  · obtain ⟨e, he, -⟩ := ControlLoop.new_of_misfit hfit s.config.cycleTimeout
    rw [control_of_new_error he]
    exact ⟨[], paced_nil mode⟩
  · by_cases hrefused : s.Unscheduled mode
    · obtain ⟨htorque, hpolicy, reason, hreason⟩ := hrefused
      rw [control_of_refused hfit htorque hpolicy hreason]
      exact ⟨[], paced_nil mode⟩
    · rw [control_of_admitted hfit hrefused]
      exact ControlLoop.exists_paced (ControlLoop.new_of_fit hfit s.config.cycleTimeout) s.link user

/-- Whatever a control call comes to, its callbacks are asked in cycles, and the periods that they
are given are the times between the states of these cycles. -/
theorem Session.periods_of_control {κ σ ρ : Type} [Link σ] (s : Session κ σ) (mode : Mode)
    (motion torque : Option (Callback ρ)) (user : ρ) :
    ∃ cycles, Paced mode (s.control mode motion torque user).events cycles ∧ AddsUp cycles := by
  obtain ⟨cycles, hpaced⟩ := s.exists_paced_control mode motion torque user
  exact ⟨cycles, hpaced, hpaced.addsUp⟩

end ArmSession
