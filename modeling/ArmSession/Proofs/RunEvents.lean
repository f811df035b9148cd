import ArmSession.Proofs.Course

/-!
# What the events of a run tell

Every cycle that takes a state says so, and every command that is sent is named. So the states that
a run accepts and the commands that it sends are read off its events: the states are taken by one
receiver, and each command is that of an exchange.
-/

namespace ArmSession

theorem Event.filterMap_received_cons (s : RobotState) (period : Duration) (events : List Event) :
    (Event.received s period :: events).filterMap Event.received? =
      (s, period) :: events.filterMap Event.received? := rfl

def Intake.arrival (x : Intake) : RobotState × Duration := (x.state, x.period)

namespace ControlLoop

section Asking

variable {ρ : Type} (c : ControlLoop ρ) (s : RobotState) (period : Duration) (user : ρ)

theorem filterMap_received_dispatch :
    (c.dispatch s period user).events.filterMap Event.received? = [] := by
  unfold dispatch ask
  cases c.motion <;> cases c.torque <;> rfl

theorem filterMap_sent_dispatch :
    (c.dispatch s period user).events.filterMap Event.sent? = [] := by
  unfold dispatch ask
  cases c.motion <;> cases c.torque <;> rfl

end Asking

variable {σ ρ : Type} [Link σ] {c : ControlLoop ρ} {link link' : σ} {user : ρ}
  {x : Exchange ρ} {receiver : Receiver} {xs : List (Exchange ρ)} {run : Run σ ρ}

theorem Exchanges.filterMap_received (h : Exchanges c link user x receiver link') :
    x.events.filterMap Event.received? = [(x.state, x.period)] := by
  have hnone := filterMap_received_dispatch c x.state x.period user
  rw [← h.asked] at hnone
  rw [Exchange.events, List.cons_append, Event.filterMap_received_cons, List.filterMap_append,
    hnone]
  rfl

theorem Exchanges.filterMap_sent (h : Exchanges c link user x receiver link') :
    x.events.filterMap Event.sent? = [x.command] := by
  have hnone := filterMap_sent_dispatch c x.state x.period user
  rw [← h.asked] at hnone
  rw [Exchange.events, List.cons_append, List.filterMap_cons_none rfl, List.filterMap_append,
    hnone]
  rfl

theorem Breaks.commands_eq (h : Breaks c link user run) : run.commands = [] := by
  cases h with
  | receive failed => rfl
  | take arrived failed => rfl
  | fault arrived taken failed => rfl
  | combine arrived taken unfaulted failed =>
      exact (List.filterMap_cons_none rfl).trans (filterMap_sent_dispatch c _ _ user)
  | send arrived taken unfaulted combined failed =>
      exact (List.filterMap_cons_none rfl).trans (filterMap_sent_dispatch c _ _ user)

theorem Course.commands_eq (h : Course c link user xs run) : run.commands = xs.map (·.command) := by
  induction h with
  | broken last => exact last.commands_eq
  | finished last _ => exact last.filterMap_sent
  | again first _ _ ih =>
      rw [Run.commands, Run.after, List.filterMap_append, first.filterMap_sent, ← Run.commands, ih]
      rfl

/-- The commands of a run have the ids of the states that they answer. -/
theorem Course.ids_commands (h : Course c link user xs run) :
    run.commands.map (·.messageId) = xs.map (·.state.messageId) := by
  rw [h.commands_eq, List.map_map]
  exact List.map_congr_left fun x hx => h.messageId_eq hx

/-- A cycle that breaks off has accepted a state at most. -/
theorem Breaks.takes (h : Breaks c link user run) : ∃ accepted r,
    c.receiver.Takes accepted r ∧ accepted.length ≤ 1 ∧
      run.received = accepted.map Intake.arrival := by
  cases h with
  | receive failed => exact ⟨[], _, .none _, by simp, rfl⟩
  | take arrived failed => exact ⟨[], _, .none _, by simp, rfl⟩
  | @fault m _ s period _ _ arrived taken failed =>
      exact ⟨[⟨m, s, period⟩], _, .more taken (.none _), by simp, rfl⟩
  | @combine m _ s period _ _ arrived taken unfaulted failed =>
      refine ⟨[⟨m, s, period⟩], _, .more taken (.none _), by simp, ?_⟩
      rw [Run.received, Event.filterMap_received_cons, filterMap_received_dispatch]
      rfl
  | @send m _ _ s period _ _ _ arrived taken unfaulted combined failed =>
      refine ⟨[⟨m, s, period⟩], _, .more taken (.none _), by simp, ?_⟩
      rw [Run.received, Event.filterMap_received_cons, filterMap_received_dispatch]
      rfl

/-- One receiver takes the states that a run accepts: those that are answered, and one on which the
run may break off. -/
theorem Course.takes_received (h : Course c link user xs run) : ∃ unanswered r,
    c.receiver.Takes (xs.map Exchange.toIntake ++ unanswered) r ∧ unanswered.length ≤ 1 ∧
      run.received = (xs.map Exchange.toIntake ++ unanswered).map Intake.arrival := by
  induction h with
  | broken last => exact last.takes
  | finished last _ =>
      exact ⟨[], _, .more last.taken (.none _), by simp, last.filterMap_received⟩
  | again first _ _ ih =>
      obtain ⟨unanswered, r, htakes, hshort, hreceived⟩ := ih
      refine ⟨unanswered, r, .more first.taken htakes, hshort, ?_⟩
      rw [Run.received, Run.after, List.filterMap_append, first.filterMap_received,
        ← Run.received, hreceived]
      rfl

theorem received_run (hphase : c.phase.isTerminal = false) (link : σ) (user : ρ) :
    (c.run link user).received = (c.cycles link user).received :=
  filterMap_events_run hphase (fun _ => rfl) (fun _ => rfl) (fun _ _ _ => rfl) link user

theorem calls_run (hphase : c.phase.isTerminal = false) (link : σ) (user : ρ) :
    (c.run link user).calls = (c.cycles link user).calls :=
  filterMap_events_run hphase (fun _ => rfl) (fun _ => rfl) (fun _ _ _ => rfl) link user

theorem commands_run (hphase : c.phase.isTerminal = false) (link : σ) (user : ρ) :
    (c.run link user).commands = (c.cycles link user).commands :=
  filterMap_events_run hphase (fun _ => rfl) (fun _ => rfl) (fun _ _ _ => rfl) link user

end ControlLoop

end ArmSession
