import ArmSession.Proofs.CommandMessage
import ArmSession.Proofs.Stretch
import ArmSession.Proofs.Traced

/-!
# One command per state

A control loop and its controller keep step: states and commands alternate on the realtime
channel, every command answers the state before it, and the command that finishes the motion is
the last one. The calls are read off a traced link, the messages off a scripted one.
-/

namespace ArmSession

namespace ControlLoop

variable {ρ : Type}

/-- A run of `c` on `link` whose full cycles are `xs` keeps step with the controller. -/
structure KeepsStep (c : ControlLoop ρ) (link : ScriptedLink) (user : ρ)
    (xs : List (Exchange ρ)) : Prop where
  /-- The record of calls is that of the run itself. -/
  traced : (c.run (Traced.start link) user).mapLink Traced.link = c.run link user
  /-- Receives and sends alternate. A run that fails, fails in the cycle after those of `xs`. -/
  alternates : ∃ ending, (c.run (Traced.start link) user).link.calls =
      xs.flatMap (Exchange.calls c.receiver.timeout) ++ ending ∧
    ((c.run link user).result = .ok () → ending = []) ∧
    ((c.run link user).result ≠ .ok () → BrokenCalls c.receiver.timeout ending)
  /-- A run that fails in its `k`-th cycle has sent `k - 1` commands. -/
  failedIn : (c.run link user).result ≠ .ok () →
    (c.run (Traced.start link) user).link.calls.countP LinkCall.isReceive = xs.length + 1
  received : ∃ broken, link.realtime =
      xs.map (.message ·.message) ++ broken ++ (c.run link user).link.realtime ∧
    broken.length ≤ 1
  decoded : ∀ x ∈ xs, RobotState.decode x.message = .ok x.state
  /-- The log grows by one command for each of these states, in order, and by nothing else. -/
  sent : (c.run link user).link.sent =
    link.sent ++ xs.map fun x => (.realtime, x.command.encode)
  echoed : ∀ x ∈ xs, RobotCommand.decode x.command.encode = .ok x.command ∧
    x.command.messageId = x.state.messageId
  increasing : (xs.map (·.state.messageId)).Pairwise (· < ·)
  counted : (c.run link user).loop.commandsSent.toNat = xs.length
  /-- A run ends well exactly when its last command finishes the motion. -/
  finished : (c.run link user).result = .ok () ↔
    ∃ x, xs.getLast? = some x ∧ x.command.finished = true
  ongoing : ∀ x ∈ xs.dropLast, x.command.finished = false
  unfinished : (c.run link user).result ≠ .ok () → ∀ x ∈ xs, x.command.finished = false

theorem exists_keepsStep {c : ControlLoop ρ} (hphase : c.phase.isTerminal = false)
    (hcount : c.commandsSent = 0) (link : ScriptedLink)
    (hsize : link.realtime.length < UInt64.size) (user : ρ) :
    ∃ xs : List (Exchange ρ), KeepsStep c link user xs := by
  obtain ⟨xs, htraced⟩ := exists_course c (Traced.start link) user
  have hran : (c.cycles (Traced.start link) user).mapLink Traced.link = c.cycles link user :=
    cycles_traced c (Traced.start link) user
  have hxs : Course c link user xs (c.cycles link user) := by
    rw [← hran]
    exact htraced.untraced
  obtain ⟨ending, hcalls, hok, herror⟩ := htraced.calls_eq
  obtain ⟨broken, hqueue, hbroken⟩ := hxs.realtime_eq
  obtain ⟨r, htakes⟩ := hxs.takes
  refine ⟨xs, run_traced c (Traced.start link) user, ?_, ?_, ?_, ?_, ?_, ?_, ?_, ?_, ?_, ?_, ?_⟩
  · rw [run_eq hphase, run_eq hphase, ← hran]
    exact ⟨ending, hcalls, hok, herror⟩
  · rw [run_eq hphase, run_eq hphase, ← hran]
    intro hfailed
    dsimp only
    rw [hcalls, List.countP_append, List.countP_append, countP_flatMap_calls,
      (herror hfailed).countP_eq]
    simp [Traced.start]
  · rw [run_eq hphase]
    exact ⟨broken, hqueue, hbroken⟩
  · intro x hx
    exact htakes.decode_message (List.mem_map.2 ⟨x, hx, rfl⟩)
  · rw [run_eq hphase]
    exact hxs.sent_eq
  · intro x hx
    exact ⟨RobotCommand.decode_encode x.command, hxs.messageId_eq hx⟩
  · simpa [Function.comp_def] using htakes.pairwise_ids
  · have hlength := hxs.length_le
    rw [run_eq hphase]
    dsimp only
    rw [hxs.commandsSent_eq, hcount, UInt64.zero_add, UInt64.toNat_ofNat_of_lt' (by omega)]
  · rw [run_eq hphase]
    exact hxs.result_eq_ok_iff
  · intro x hx
    exact hxs.ongoing_of_mem_dropLast hx
  · rw [run_eq hphase]
    exact hxs.unfinished

theorem one_command_per_state {mode : Mode} {motion torque : Option (Callback ρ)}
    {timeout : Duration} {c : ControlLoop ρ} (hnew : new mode motion torque timeout = .ok c)
    (link : ScriptedLink) (hsize : link.realtime.length < UInt64.size) (user : ρ) :
    ∃ xs : List (Exchange ρ), KeepsStep c link user xs := by
  obtain ⟨-, -, -, rfl⟩ := new_eq_ok_iff.1 hnew
  exact exists_keepsStep rfl rfl link hsize user

/-- Two states that are answered, and a duplicate that is not. -/
theorem one_command_per_state_of_duplicate :
    let hold : Callback Nat := fun s _ n =>
      (.ofSetpoint .jointPosition (.ongoing s.jointPositions), n + 1)
    let push : Callback Nat := fun _ _ n => (.torques ⟨.zeros jointCount, n = 5⟩, n + 1)
    let at' : UInt64 → RobotState := fun id => { RobotState.initial with messageId := id }
    let link := ScriptedLink.ofStates [at' 7, at' 9, at' 9]
    let c : ControlLoop Nat := ⟨.motionWithTorque .jointPosition, some hold, some push,
      .new (.ofMillis 1000), .idle, 0⟩
    new (.motionWithTorque .jointPosition) (some hold) (some push) (.ofMillis 1000) = .ok c ∧
      link.realtime.length < UInt64.size ∧ ∃ xs : List (Exchange Nat), KeepsStep c link 0 xs := by
  intro hold push at' link c
  have hnew : new (.motionWithTorque .jointPosition) (some hold) (some push) (.ofMillis 1000) =
    .ok c := rfl
  have hsize : link.realtime.length < UInt64.size := by decide
  exact ⟨hnew, hsize, one_command_per_state hnew link hsize 0⟩

end ControlLoop

end ArmSession
