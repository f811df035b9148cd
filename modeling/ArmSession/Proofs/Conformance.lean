import ArmSession.Proofs.CommandMessage
import ArmSession.Proofs.Stretch

/-!
# Commands conform to the mode

Every message that a run sends is a command of the form that the mode asks for, and holds exactly
what the callbacks answered to the state of its cycle. What the mode does not use is zero.
-/

namespace ArmSession

open Wire

namespace ControlLoop

variable {ρ : Type}

/-- The answers of `xs` are those of the callbacks, which are asked about each state in turn: the
motion callback first, each finding the callers' state as the call before left it. -/
def AnsweredBy (motion torque : Option (Callback ρ)) : ρ → List (Exchange ρ) → Prop
  | _, [] => True
  | user, x :: xs =>
    let asked := motion.elim user fun f => (f x.state x.period user).2
    let left := torque.elim asked fun f => (f x.state x.period asked).2
    x.answers.motion = motion.map (fun f => (f x.state x.period user).1) ∧
      x.answers.torque = torque.map (fun f => (f x.state x.period asked).1) ∧
        AnsweredBy motion torque left xs

/-- The message of `x` is a command for `mode`, and says what the callbacks answered. -/
structure Conforms (mode : Mode) (x : Exchange ρ) : Prop where
  length_eq : x.command.encode.length = 198
  decoded : RobotCommand.decode x.command.encode = .ok x.command
  motionKind : x.command.motion.map (·.kind) = mode.motion
  motion : x.answers.motion = x.command.motion.map .motion
  motionFinite : ∀ m, x.command.motion = some m → m.setpoint.values.allFinite = true
  torqueUsed : x.command.torques.isSome = mode.torque
  torque : x.answers.torque = x.command.torques.map .torques
  torqueFinite : ∀ t, x.command.torques = some t → t.values.allFinite = true
  /-- No motion slot is in use beyond those of the kind of motion, if there is one. -/
  motionUnused : (RobotCommand.motionBytes x.command.encode).drop
      (8 * RobotCommand.slotsUsed mode.motion) =
    List.replicate (8 * (motionSlots - RobotCommand.slotsUsed mode.motion)) 0
  torqueUnused : mode.torque = false →
    RobotCommand.torqueBytes x.command.encode = List.replicate (8 * jointCount) 0
  nonempty : x.command.motion.isSome = true ∨ x.command.torques.isSome = true

theorem Course.answeredBy {σ : Type} [Link σ] {c : ControlLoop ρ} {link : σ} {user : ρ}
    {xs : List (Exchange ρ)} {run : Run σ ρ} (h : Course c link user xs run) :
    AnsweredBy c.motion c.torque user xs := by
  induction h with
  | broken => trivial
  | finished last _ =>
      refine ⟨?_, ?_, trivial⟩
      · rw [last.asked, dispatch_motion]
      · rw [last.asked, dispatch_torque]
  | again first _ _ ih =>
      refine ⟨?_, ?_, ?_⟩
      · rw [first.asked, dispatch_motion]
      · rw [first.asked, dispatch_torque]
      · rw [first.asked, dispatch_user] at ih
        exact ih

theorem Exchanges.conforms {σ : Type} [Link σ] {c : ControlLoop ρ} {link link' : σ} {user : ρ}
    {x : Exchange ρ} {receiver : Receiver} (h : Exchanges c link user x receiver link')
    (hc : Fits c) : Conforms c.mode x := by
  obtain ⟨motion, torques, hmotion, htorques, hcommand⟩ := combine_eq_ok_iff.1 h.combined
  have hslot : c.mode.motion.isSome = x.answers.motion.isSome := by
    rw [h.asked, dispatch_motion, Option.isSome_map, hc.motion]
  obtain ⟨hanswer, hkind, hfinite⟩ := motionPart_eq_ok hslot hmotion
  obtain ⟨htorque, htfinite⟩ := torquePart_eq_ok htorques
  have hused : torques.isSome = c.mode.torque := by
    have hasked : x.answers.torque.isSome = c.torque.isSome := by
      rw [h.asked, dispatch_torque, Option.isSome_map]
    rw [hc.torque, ← hasked, htorque, Option.isSome_map]
  have hm : x.command.motion = motion := by rw [hcommand]
  have ht : x.command.torques = torques := by rw [hcommand]
  refine ⟨RobotCommand.length_encode x.command, RobotCommand.decode_encode x.command, ?_, ?_, ?_,
    ?_, ?_, ?_, ?_, ?_, ?_⟩
  · rw [hm, hkind]
  · rw [hm, hanswer]
  · rwa [hm]
  · rw [ht, hused]
  · rw [ht, htorque]
  · rwa [ht]
  · rw [← hkind, ← hm]
    exact RobotCommand.drop_motionBytes_encode x.command
  · intro hnone
    apply RobotCommand.torqueBytes_encode_of_none
    rw [ht]
    exact Option.isSome_eq_false_iff.1 (hused.trans hnone) |> Option.isNone_iff_eq_none.1
  · rw [hm, ht, hused]
    have hreadOnly := hc.used
    rw [Mode.isReadOnly, ← hkind] at hreadOnly
    cases hc : c.mode.torque with
    | true => exact .inr rfl
    | false => exact .inl (by cases motion <;> simp_all)

/-- What a run sends are commands that the mode asks for, made of what the callbacks answered to
the states that the run took, each with the time since the state before. -/
theorem sent_commands_conform {mode : Mode} {motion torque : Option (Callback ρ)}
    {timeout : Duration} {c : ControlLoop ρ} (hnew : new mode motion torque timeout = .ok c)
    (link : ScriptedLink) (user : ρ) : ∃ xs : List (Exchange ρ),
    (c.run link user).link.sent =
        link.sent ++ xs.map (fun x => (.realtime, x.command.encode)) ∧
      (∃ rest, link.realtime = xs.map (.message ·.message) ++ rest) ∧
      (∀ x ∈ xs, RobotState.decode x.message = .ok x.state) ∧
      (∃ r, (Receiver.new timeout).Takes (xs.map Exchange.toIntake) r) ∧
      AnsweredBy motion torque user xs ∧ ∀ x ∈ xs, Conforms mode x := by
  have hfits := fits_of_new hnew
  obtain ⟨-, -, -, rfl⟩ := new_eq_ok_iff.1 hnew
  let c : ControlLoop ρ := ⟨mode, motion, torque, .new timeout, .idle, 0⟩
  have hphase : c.phase.isTerminal = false := rfl
  obtain ⟨xs, hxs⟩ := exists_course c link user
  obtain ⟨broken, hqueue, -⟩ := hxs.realtime_eq
  obtain ⟨r, htakes⟩ := hxs.takes
  refine ⟨xs, ?_, ⟨broken ++ (c.cycles link user).link.realtime, ?_⟩, ?_, ⟨r, htakes⟩,
    hxs.answeredBy, ?_⟩
  · rw [run_eq hphase]
    exact hxs.sent_eq
  · rw [hqueue, List.append_assoc]
  · intro x hx
    exact htakes.decode_message (List.mem_map.2 ⟨x, hx, rfl⟩)
  · intro x hx
    obtain ⟨c', _, _, _, _, hexchange, hmode, hmotion, htorque⟩ := hxs.exists_exchanges hx
    have hconforms := hexchange.conforms (hfits.of_eq hmode hmotion htorque)
    rwa [hmode] at hconforms

/-- A run that only uses torques, with a negative zero among them. -/
theorem sent_commands_conform_of_torques :
    let push : Callback Nat := fun s _ n =>
      (.torques ⟨.replicate jointCount ⟨0x8000000000000000⟩, s.messageId = 2⟩, n + 1)
    let at' : UInt64 → RobotState := fun id => { RobotState.initial with messageId := id }
    let link := ScriptedLink.ofStates [at' 1, at' 2]
    let c : ControlLoop Nat := ⟨.torqueOnly, none, some push, .new (.ofMillis 1000), .idle, 0⟩
    new .torqueOnly none (some push) (.ofMillis 1000) = .ok c ∧ ∃ xs : List (Exchange Nat),
      (c.run link 0).link.sent =
          link.sent ++ xs.map (fun x => (.realtime, x.command.encode)) ∧
        (∃ rest, link.realtime = xs.map (.message ·.message) ++ rest) ∧
        (∀ x ∈ xs, RobotState.decode x.message = .ok x.state) ∧
        (∃ r, (Receiver.new (.ofMillis 1000)).Takes (xs.map Exchange.toIntake) r) ∧
        AnsweredBy none (some push) 0 xs ∧ ∀ x ∈ xs, Conforms .torqueOnly x := by
  intro push at' link c
  have hnew : new .torqueOnly none (some push) (.ofMillis 1000) = .ok c := rfl
  exact ⟨hnew, sent_commands_conform hnew link 0⟩

end ControlLoop

end ArmSession
