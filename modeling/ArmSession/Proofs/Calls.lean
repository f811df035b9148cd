import ArmSession.Proofs.RunEvents

/-!
# The calls of a run

A run asks its callbacks in cycles, all of them about one state before it takes the next. So its
calls are those of a plain recursion over the states that it asks about, which are the states that
it accepts up to the first with a fault.
-/

namespace ArmSession

abbrev Call := Slot × RobotState × Duration × Command

def Call.question (call : Call) : Slot × RobotState × Duration := (call.1, call.2.1, call.2.2.1)

def Call.answer (call : Call) : Command := call.2.2.2

section

variable {ρ : Type}

/-- Asks callbacks about a state, each with the callers' state as the one before has left it. -/
def askInTurn (s : RobotState) (period : Duration) :
    List (Slot × Callback ρ) → ρ → List Call × ρ
  | [], user => ([], user)
  | (slot, f) :: callbacks, user =>
    let (answer, user) := f s period user
    let (calls, user) := askInTurn s period callbacks user
    ((slot, s, period, answer) :: calls, user)

def askEach (callbacks : List (Slot × Callback ρ)) :
    List (RobotState × Duration) → ρ → List Call × ρ
  | [], user => ([], user)
  | (s, period) :: cycles, user =>
    let (calls, user) := askInTurn s period callbacks user
    let (more, user) := askEach callbacks cycles user
    (calls ++ more, user)

theorem questions_askInTurn (s : RobotState) (period : Duration)
    (callbacks : List (Slot × Callback ρ)) (user : ρ) :
    (askInTurn s period callbacks user).1.map Call.question =
      callbacks.map fun entry => (entry.1, s, period) := by
  induction callbacks generalizing user with
  | nil => rfl
  | cons entry callbacks ih => exact congrArg ((entry.1, s, period) :: ·) (ih _)

/-- Whatever the answers are, the questions are the same. -/
theorem questions_askEach (callbacks : List (Slot × Callback ρ))
    (cycles : List (RobotState × Duration)) (user : ρ) :
    (askEach callbacks cycles user).1.map Call.question =
      cycles.flatMap fun cycle => callbacks.map fun entry => (entry.1, cycle) := by
  induction cycles generalizing user with
  | nil => rfl
  | cons cycle cycles ih =>
      rw [askEach, List.map_append, questions_askInTurn, ih, List.flatMap_cons]

end

namespace ControlLoop

def callbacks {ρ : Type} (c : ControlLoop ρ) : List (Slot × Callback ρ) :=
  (c.motion.map (Slot.motion, ·)).toList ++ (c.torque.map (Slot.torque, ·)).toList

theorem askInTurn_callbacks {ρ : Type} (c : ControlLoop ρ) (s : RobotState) (period : Duration)
    (user : ρ) : askInTurn s period c.callbacks user =
      ((c.dispatch s period user).events.filterMap Event.called?,
        (c.dispatch s period user).user) := by
  unfold callbacks dispatch ask
  cases c.motion <;> cases c.torque <;> rfl

variable {σ ρ : Type} {c : ControlLoop ρ} {user : ρ} {run : Run σ ρ}

/-- A run asks its callbacks about the states of `asked`. It accepts no others, but for one with a
fault at its end. -/
structure Asks (c : ControlLoop ρ) (user : ρ) (run : Run σ ρ) (asked : List Intake) : Prop where
  taken : ∃ r, c.receiver.Takes asked r
  received : ∃ faulted, run.received = asked.map Intake.arrival ++ faulted ∧
    faulted.length ≤ 1 ∧ ∀ x ∈ faulted, x.1.fault ≠ none
  unfaulted : ∀ x ∈ asked, x.state.fault = none
  called : (run.calls, run.user) = askEach c.callbacks (asked.map Intake.arrival) user

theorem asks_one {x : Intake} {receiver : Receiver}
    (taken : c.receiver.take x.message = .ok (x.state, x.period, receiver))
    (unfaulted : x.state.fault = none) (hreceived : run.received = [x.arrival])
    (hcalled : askInTurn x.state x.period c.callbacks user = (run.calls, run.user)) :
    Asks c user run [x] where
  taken := ⟨receiver, .more taken (.none receiver)⟩
  received := ⟨[], hreceived, by simp, nofun⟩
  unfaulted := by
    intro y hy
    rw [List.mem_singleton.1 hy]
    exact unfaulted
  called := by
    rw [List.map_singleton, Intake.arrival, askEach, hcalled]
    exact Prod.ext (List.append_nil _).symm rfl

variable [Link σ] {link link' : σ}

theorem Exchanges.askInTurn_eq {x : Exchange ρ} {receiver : Receiver}
    (h : Exchanges c link user x receiver link') :
    askInTurn x.state x.period c.callbacks user =
      (x.events.filterMap Event.called?, x.answers.user) := by
  rw [askInTurn_callbacks, ← h.asked, Exchange.events, List.cons_append,
    List.filterMap_cons_none rfl, List.filterMap_append, List.filterMap_cons_none rfl,
    List.filterMap_nil, List.append_nil]

/-- A cycle that breaks off has asked about its state if it comes as far as that. -/
theorem Breaks.exists_asks (h : Breaks c link user run) : ∃ asked, Asks c user run asked := by
  cases h with
  | receive failed => exact ⟨[], ⟨_, .none _⟩, ⟨[], rfl, by simp, nofun⟩, nofun, rfl⟩
  | take arrived failed => exact ⟨[], ⟨_, .none _⟩, ⟨[], rfl, by simp, nofun⟩, nofun, rfl⟩
  | @fault m _ s period _ fault arrived taken failed =>
      refine ⟨[], ⟨_, .none _⟩, ⟨[(s, period)], rfl, by simp, ?_⟩, nofun, rfl⟩
      intro x hx
      rw [List.mem_singleton.1 hx, failed]
      exact nofun
  | @combine m _ s period _ _ arrived taken unfaulted failed =>
      refine ⟨[⟨m, s, period⟩], asks_one taken unfaulted ?_ (askInTurn_callbacks ..)⟩
      rw [Run.received, Event.filterMap_received_cons, filterMap_received_dispatch]
      rfl
  | @send m _ _ s period _ _ _ arrived taken unfaulted combined failed =>
      refine ⟨[⟨m, s, period⟩], asks_one taken unfaulted ?_ (askInTurn_callbacks ..)⟩
      rw [Run.received, Event.filterMap_received_cons, filterMap_received_dispatch]
      rfl

theorem Course.exists_asks {xs : List (Exchange ρ)} (h : Course c link user xs run) :
    ∃ asked, Asks c user run asked := by
  induction h with
  | broken last => exact last.exists_asks
  | @finished c _ _ user x _ last _ =>
      exact ⟨[x.toIntake], asks_one last.taken last.unfaulted last.filterMap_received
        last.askInTurn_eq⟩
  | @again c _ _ user x _ _ run first _ _ ih =>
      obtain ⟨asked, ⟨r, htakes⟩, ⟨faulted, hreceived, hshort, hfaulted⟩, hasked, hcalled⟩ := ih
      refine ⟨x.toIntake :: asked, ⟨r, .more first.taken htakes⟩,
        ⟨faulted, ?_, hshort, hfaulted⟩, ?_, ?_⟩
      · rw [Run.received, Run.after, List.filterMap_append, first.filterMap_received,
          ← Run.received, hreceived]
        rfl
      · exact List.forall_mem_cons.2 ⟨first.unfaulted, hasked⟩
      · have hmore : askEach c.callbacks (asked.map Intake.arrival) x.answers.user =
          (run.calls, run.user) := hcalled.symm
        rw [List.map_cons, Intake.arrival, askEach, first.askInTurn_eq]
        dsimp only
        rw [hmore, Run.calls, Run.after, List.filterMap_append]
        rfl

/-- Every run is the calls of its callbacks about one state after the other. -/
theorem exists_asks_run (hphase : c.phase.isTerminal = false) (link : σ) (user : ρ) :
    ∃ asked, Asks c user (c.run link user) asked := by
  obtain ⟨xs, hxs⟩ := exists_course c link user
  obtain ⟨asked, htaken, hreceived, hunfaulted, hcalled⟩ := hxs.exists_asks
  refine ⟨asked, htaken, ?_, hunfaulted, ?_⟩
  · rwa [received_run hphase]
  · rw [calls_run hphase, run_eq hphase]
    exact hcalled

end ControlLoop

end ArmSession
