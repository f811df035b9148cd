import ArmSession.ControlLoop
import Mathlib.Tactic.SplitIfs

/-!
# How answers become a command

The callbacks are asked for answers, and these are checked one by one. When all is well, the
command holds them unchanged; otherwise the first check that fails, the kind before the values and
the motion before the torques, is the one that is reported.
-/

namespace ArmSession.ControlLoop

section Asking

variable {ρ : Type} (c : ControlLoop ρ) (s : RobotState) (period : Duration) (user : ρ)

theorem dispatch_motion :
    (c.dispatch s period user).motion = c.motion.map fun f => (f s period user).1 := by
  unfold dispatch ask
  cases c.motion <;> cases c.torque <;> rfl

/-- The torque callback finds the callers' state as the motion callback leaves it. -/
theorem dispatch_torque : (c.dispatch s period user).torque =
    c.torque.map fun f => (f s period (c.motion.elim user fun g => (g s period user).2)).1 := by
  unfold dispatch ask
  cases c.motion <;> cases c.torque <;> rfl

theorem dispatch_user : (c.dispatch s period user).user =
    c.torque.elim (c.motion.elim user fun g => (g s period user).2) fun f =>
      (f s period (c.motion.elim user fun g => (g s period user).2)).2 := by
  unfold dispatch ask
  cases c.motion <;> cases c.torque <;> rfl

def slotCalls (motion torque : Option Command) : List (Slot × RobotState × Duration × Command) :=
  (motion.map fun a => (Slot.motion, s, period, a)).toList ++
    (torque.map fun a => (Slot.torque, s, period, a)).toList

theorem filterMap_called_dispatch :
    (c.dispatch s period user).events.filterMap Event.called? =
      slotCalls s period (c.dispatch s period user).motion (c.dispatch s period user).torque := by
  unfold dispatch ask
  cases c.motion <;> cases c.torque <;> rfl

end Asking

variable {mode : Mode}

theorem checkCommand_eq_ok_iff {expected : CommandKind} {a : Command} :
    checkCommand mode expected a = .ok () ↔ a.kind = expected ∧ a.isFinite = true := by
  unfold checkCommand
  by_cases hk : a.kind = expected
  · cases hf : a.isFinite <;> simp [hk]
  · simp [hk]

theorem checkCommand_eq_error {expected : CommandKind} {a : Command} {e : Failure}
    (h : checkCommand mode expected a = .error e) :
    (a.kind ≠ expected ∧ e = .wrongCommand a.kind expected mode) ∨
      (a.kind = expected ∧ a.isFinite = false ∧ e = .nonFinite a.kind) := by
  unfold checkCommand at h
  split_ifs at h with hk hf
  · cases h
    exact .inl ⟨hk, rfl⟩
  · cases h
    exact .inr ⟨by simpa using hk, by simpa using hf, rfl⟩

theorem motionPart_none : motionPart mode none = .ok none := by
  cases h : mode.expectedMotion <;> simp [motionPart, h]

theorem motionPart_of_expected {k : MotionKind} {a : Command} (hk : mode.motion = some k) :
    motionPart mode (some a) = (checkCommand mode (.motion k) a).map fun _ => a.motion? := by
  have he : mode.expectedMotion = some (.motion k) := by rw [Mode.expectedMotion, hk]; rfl
  unfold motionPart
  simp only [he]
  cases checkCommand mode (.motion k) a <;> rfl

theorem torquePart_some (a : Command) :
    torquePart mode (some a) = (checkCommand mode .torques a).map fun _ => a.torques? := by
  unfold torquePart
  dsimp only
  cases checkCommand mode .torques a <;> rfl

theorem motionPart_eq_error {a : Option Command} {e : Failure} (h : motionPart mode a = .error e) :
    ∃ k b, mode.motion = some k ∧ a = some b ∧ checkCommand mode (.motion k) b = .error e := by
  cases a with
  | none => rw [motionPart_none] at h; cases h
  | some b =>
      cases hk : mode.motion with
      | none => simp [motionPart, Mode.expectedMotion, hk] at h
      | some k =>
          rw [motionPart_of_expected hk] at h
          refine ⟨k, b, rfl, rfl, ?_⟩
          cases hc : checkCommand mode (.motion k) b with
          | error e' => rw [hc] at h; cases h; rfl
          | ok _ => rw [hc] at h; cases h

theorem torquePart_eq_error {a : Option Command} {e : Failure} (h : torquePart mode a = .error e) :
    ∃ b, a = some b ∧ checkCommand mode .torques b = .error e := by
  cases a with
  | none => cases h
  | some b =>
      rw [torquePart_some] at h
      refine ⟨b, rfl, ?_⟩
      cases hc : checkCommand mode .torques b with
      | error e' => rw [hc] at h; cases h; rfl
      | ok _ => rw [hc] at h; cases h

/-- The torques are looked at only if there is nothing wrong with the motion. -/
theorem combine_eq_error {id : UInt64} {a b : Option Command} {e : Failure}
    (h : combine mode id a b = .error e) : motionPart mode a = .error e ∨
      ∃ motion, motionPart mode a = .ok motion ∧ torquePart mode b = .error e := by
  unfold combine at h
  cases hm : motionPart mode a with
  | error e' =>
      simp only [hm, Except.error.injEq] at h
      exact .inl (congrArg Except.error h)
  | ok motion =>
      cases ht : torquePart mode b with
      | error e' =>
          simp only [hm, ht, Except.error.injEq] at h
          exact .inr ⟨motion, rfl, congrArg Except.error h⟩
      | ok torques => simp [hm, ht] at h

theorem combine_eq_ok_iff {id : UInt64} {a b : Option Command} {command : RobotCommand} :
    combine mode id a b = .ok command ↔ ∃ motion torques, motionPart mode a = .ok motion ∧
      torquePart mode b = .ok torques ∧ command = ⟨id, motion, torques⟩ := by
  unfold combine
  cases motionPart mode a with
  | error e => simp
  | ok motion =>
      cases torquePart mode b with
      | error e => simp
      | ok torques => simp [eq_comm]

theorem messageId_of_combine {id : UInt64} {a b : Option Command} {command : RobotCommand}
    (h : combine mode id a b = .ok command) : command.messageId = id := by
  obtain ⟨motion, torques, -, -, rfl⟩ := combine_eq_ok_iff.1 h
  rfl

theorem motionPart_eq_ok {a : Option Command} {part : Option MotionCommand}
    (hslot : mode.motion.isSome = a.isSome) (h : motionPart mode a = .ok part) :
    a = part.map .motion ∧ part.map (·.kind) = mode.motion ∧
      ∀ m, part = some m → m.setpoint.values.allFinite = true := by
  cases a with
  | none =>
      rw [motionPart_none] at h
      cases h
      have hnone : mode.motion = none := by simpa using hslot
      simp [hnone]
  | some a =>
      obtain ⟨k, hk⟩ := Option.isSome_iff_exists.1 (hslot.trans rfl)
      rw [motionPart_of_expected hk] at h
      cases hc : checkCommand mode (.motion k) a with
      | error e => rw [hc] at h; cases h
      | ok _ =>
          rw [hc] at h
          obtain ⟨hkind, hfinite⟩ := checkCommand_eq_ok_iff.1 hc
          obtain ⟨m, hm, hmk, rfl⟩ := Command.motion?_of_kind hkind
          cases h
          refine ⟨rfl, by rw [hk, ← hmk]; rfl, ?_⟩
          rintro m' hm'
          cases hm'
          exact hfinite

theorem torquePart_eq_ok {b : Option Command} {part : Option Torques}
    (h : torquePart mode b = .ok part) :
    b = part.map .torques ∧ ∀ t, part = some t → t.values.allFinite = true := by
  cases b with
  | none =>
      cases h
      simp
  | some b =>
      rw [torquePart_some] at h
      cases hc : checkCommand mode .torques b with
      | error e => rw [hc] at h; cases h
      | ok _ =>
          rw [hc] at h
          obtain ⟨hkind, hfinite⟩ := checkCommand_eq_ok_iff.1 hc
          obtain ⟨t, ht, rfl⟩ := Command.torques?_of_kind hkind
          cases h
          refine ⟨rfl, ?_⟩
          rintro t' ht'
          cases ht'
          exact hfinite

end ArmSession.ControlLoop
