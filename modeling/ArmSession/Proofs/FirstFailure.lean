import ArmSession.Proofs.Checks
import ArmSession.Proofs.RunEvents
import Mathlib.Logic.Function.Iterate

/-!
# The first failing check ends a run

A run goes on as long as every check passes. The first check that fails ends it, in the cycle in
which it fails, and decides what is reported. A loop that has ended is not run again.
-/

namespace ArmSession

def Exchange.asked {ρ : Type} (x : Exchange ρ) : List (Slot × RobotState × Duration × Command) :=
  ControlLoop.slotCalls x.state x.period x.answers.motion x.answers.torque

namespace Run

variable {ρ : Type}

/-- Runs the loop of a run once more, on the link and with the callers' state that were left. -/
def again (r : Run ScriptedLink ρ) : Run ScriptedLink ρ := r.loop.run r.link r.user

theorem after_after {σ : Type} (r : Run σ ρ) (events earlier : List Event) :
    (r.after events).after earlier = r.after (earlier ++ events) := by
  simp [after]

end Run

namespace ControlLoop

variable {ρ : Type}

/-- Cycles in which no check fails, none of them the last, lead from one point of a run to
another. -/
inductive GoesOn : ControlLoop ρ → ScriptedLink → ρ → List (Exchange ρ) →
    ControlLoop ρ → ScriptedLink → ρ → Prop
  | here (c : ControlLoop ρ) (link : ScriptedLink) (user : ρ) : GoesOn c link user [] c link user
  | cycle {c c' : ControlLoop ρ} {link between link' : ScriptedLink} {user user' : ρ}
      {x : Exchange ρ} {receiver : Receiver} {xs : List (Exchange ρ)}
      (passed : ∀ k, ¬ Fails c link user k) (first : Exchanges c link user x receiver between)
      (ongoing : x.command.finished = false)
      (rest : GoesOn (c.afterSend receiver) between x.answers.user xs c' link' user') :
      GoesOn c link user (x :: xs) c' link' user'

structure StopsAt (c : ControlLoop ρ) (link : ScriptedLink) (user : ρ) (k : Check)
    (stop : Run ScriptedLink ρ) : Prop where
  first : FailsFirst c link user k
  alone : ∀ j, FailsFirst c link user j → j = k
  failed : ∃ e, stop.result = .error e ∧ e.kind = k.failure
  unsent : stop.link.sent = link.sent
  unasked : k.rank ≤ Check.fault.rank → stop.user = user ∧ stop.calls = []
  /-- Past the fault of the state, every callback that there is has been called once. -/
  asked : Check.fault.rank < k.rank → ∃ s, link.nextState? = some s ∧
    stop.user = c.userAfterTorque s user ∧ stop.calls =
      slotCalls s (c.receiver.period s) (c.motionAnswer s user) (c.torqueAnswer s user)

/-- How a run `r` comes to its end: the cycles `xs` go on, and the next one, which begins at the
given point, is the last. -/
structure EndsAfter (c : ControlLoop ρ) (link : ScriptedLink) (user : ρ)
    (r : Run ScriptedLink ρ) (xs : List (Exchange ρ)) (c' : ControlLoop ρ)
    (link' : ScriptedLink) (user' : ρ) (stop : Run ScriptedLink ρ) : Prop where
  reached : GoesOn c link user xs c' link' user'
  slots : c'.mode = c.mode ∧ c'.motion = c.motion ∧ c'.torque = c.torque
  remembered : c'.receiver.last = xs.getLast?.map fun x => (x.state.messageId, x.state.time)
  last : c'.cycle link' user' = .ended stop
  result : r.result = stop.result
  link : r.link = stop.link
  user : r.user = stop.user
  calls : r.calls = xs.flatMap Exchange.asked ++ stop.calls

variable {c c' : ControlLoop ρ} {link link' : ScriptedLink} {user user' : ρ}
  {run stop : Run ScriptedLink ρ} {xs : List (Exchange ρ)}

theorem GoesOn.slots (h : GoesOn c link user xs c' link' user') :
    c'.mode = c.mode ∧ c'.motion = c.motion ∧ c'.torque = c.torque := by
  induction h with
  | here => exact ⟨rfl, rfl, rfl⟩
  | cycle _ _ _ _ ih => exact ih

theorem GoesOn.takes (h : GoesOn c link user xs c' link' user') :
    c.receiver.Takes (xs.map Exchange.toIntake) c'.receiver := by
  induction h with
  | here => exact .none _
  | cycle _ first _ _ ih => exact .more first.taken ih

theorem Exchanges.filterMap_called {x : Exchange ρ} {receiver : Receiver}
    (h : Exchanges c link user x receiver link') :
    x.events.filterMap Event.called? = x.asked := by
  have hcalls := filterMap_called_dispatch c x.state x.period user
  rw [← h.asked] at hcalls
  rw [Exchange.events, List.cons_append, List.filterMap_cons_none rfl, List.filterMap_append,
    hcalls]
  simp [Event.called?, Exchange.asked]

theorem GoesOn.filterMap_called (h : GoesOn c link user xs c' link' user') :
    (xs.flatMap Exchange.events).filterMap Event.called? = xs.flatMap Exchange.asked := by
  induction h with
  | here => rfl
  | cycle _ first _ _ ih =>
      rw [List.flatMap_cons, List.filterMap_append, first.filterMap_called, ih, List.flatMap_cons]

/-- A run is made of cycles that go on and a last one, which sends its command or breaks off. -/
theorem Course.goesOn (hc : Fits c) (h : Course c link user xs run) :
    ∃ ys c' link' user' stop, GoesOn c link user ys c' link' user' ∧
      c'.cycle link' user' = .ended stop ∧ run = stop.after (ys.flatMap Exchange.events) ∧
      (Breaks c' link' user' stop ∨ stop.result = .ok () ∧ ∀ k, ¬ Fails c' link' user' k) := by
  induction h with
  | @broken c link user stop last =>
      exact ⟨[], c, link, user, stop, .here c link user, cycle_of_breaks last, rfl, .inl last⟩
  | @finished c link _ user _ _ last final =>
      have hlast := cycle_of_exchanges last
      rw [if_pos final] at hlast
      exact ⟨[], c, link, user, _, .here c link user, hlast, rfl, .inr ⟨rfl, last.not_fails hc⟩⟩
  | again first ongoing _ ih =>
      obtain ⟨ys, c', link', user', stop, hon, hlast, rfl, hstop⟩ := ih (hc.of_eq rfl rfl rfl)
      exact ⟨_ :: ys, c', link', user', stop, .cycle (first.not_fails hc) first ongoing hon, hlast,
        by rw [Run.after_after, List.flatMap_cons], hstop⟩

theorem stopsAt_of_unasked {k : Check} {e : Failure} (hfirst : FailsFirst c link user k)
    (hrank : k.rank ≤ Check.fault.rank) (hkind : e.kind = k.failure)
    (hresult : stop.result = .error e) (hunsent : stop.link.sent = link.sent)
    (huser : stop.user = user) (hcalls : stop.calls = []) : StopsAt c link user k stop where
  first := hfirst
  alone := fun _ hj => failsFirst_unique hj hfirst
  failed := ⟨e, hresult, hkind⟩
  unsent := hunsent
  unasked := fun _ => ⟨huser, hcalls⟩
  asked := fun h => absurd hrank (Nat.not_le.2 h)

theorem stopsAt_of_asked {k : Check} {e : Failure} {s : RobotState} {period : Duration}
    (hfirst : FailsFirst c link user k) (hrank : Check.fault.rank < k.rank)
    (hkind : e.kind = k.failure) (hresult : stop.result = .error e)
    (hunsent : stop.link.sent = link.sent) (hnext : link.nextState? = some s)
    (hperiod : period = c.receiver.period s)
    (huser : stop.user = (c.dispatch s period user).user)
    (hevents : stop.events = .received s period :: (c.dispatch s period user).events) :
    StopsAt c link user k stop where
  first := hfirst
  alone := fun _ hj => failsFirst_unique hj hfirst
  failed := ⟨e, hresult, hkind⟩
  unsent := hunsent
  unasked := fun h => absurd h (Nat.not_le.2 hrank)
  asked := by
    intro _
    refine ⟨s, hnext, by rw [huser, hperiod, user_dispatch], ?_⟩
    rw [← motion_dispatch, ← torque_dispatch, ← hperiod, ← filterMap_called_dispatch, Run.calls,
      hevents]
    rfl

/-- Of the checks that fail in a cycle, the first decides what the cycle comes to. -/
theorem Breaks.stopsAt (hc : Fits c) (h : Breaks c link user stop) :
    ∃ k, StopsAt c link user k stop := by
  have hunsent := h.sent_eq
  -- Each case is a step that fails, and the cycle has come to it because all checks before passed.
  cases h with
  | receive failed =>
      have hfront : link.front? .realtime = none :=
        ScriptedLink.front?_of_receive_eq_error failed
      have hfirst : FailsFirst c link user .receive := ⟨hfront, passes_zero⟩
      exact ⟨.receive, stopsAt_of_unasked hfirst (by decide) rfl rfl hunsent rfl rfl⟩
  | take arrived failed =>
      obtain ⟨hfront, -⟩ := ScriptedLink.receive_eq_ok_iff.1 arrived
      rcases Receiver.take_eq_error failed with ⟨cause, hcause, rfl⟩ | ⟨s, id, hs, hid, rfl⟩
      · have hfirst : FailsFirst c link user .decode :=
          ⟨⟨_, cause, hfront, hcause⟩, passes_receive hfront⟩
        exact ⟨.decode, stopsAt_of_unasked hfirst (by decide) rfl rfl hunsent rfl rfl⟩
      · obtain ⟨time, hlast, hle⟩ := Receiver.precededBy?_eq_some hid
        have hfirst : FailsFirst c link user .order :=
          ⟨⟨s, (id, time), ScriptedLink.nextState?_eq hfront hs, hlast, hle⟩,
            passes_decode hfront hs⟩
        exact ⟨.order, stopsAt_of_unasked hfirst (by decide) rfl rfl hunsent rfl rfl⟩
  | @fault m between s period receiver fault arrived taken failed =>
      obtain ⟨hfront, -⟩ := ScriptedLink.receive_eq_ok_iff.1 arrived
      have hnext := ScriptedLink.nextState?_eq hfront (Receiver.take_eq_ok_iff.1 taken).1
      have hfirst : FailsFirst c link user .fault :=
        ⟨⟨s, hnext, by simp [failed]⟩, passes_order hfront taken⟩
      exact ⟨.fault, stopsAt_of_unasked hfirst (by decide) rfl rfl hunsent rfl rfl⟩
  | @combine m between s period receiver e arrived taken unfaulted failed =>
      obtain ⟨hfront, -⟩ := ScriptedLink.receive_eq_ok_iff.1 arrived
      obtain ⟨hdecode, haccept⟩ := Receiver.take_eq_ok_iff.1 taken
      have hnext := ScriptedLink.nextState?_eq hfront hdecode
      have hperiod := (Receiver.accept_eq_ok haccept).2.1
      have hpass : Passes c link user 4 := passes_fault hfront taken unfaulted
      rw [hperiod, motion_dispatch, torque_dispatch] at failed
      obtain ⟨k, hfirst, hkind, hrank⟩ := failsFirst_of_combine_error hc hpass hnext failed
      exact ⟨k, stopsAt_of_asked hfirst hrank hkind rfl hunsent hnext hperiod rfl rfl⟩
  | @send m between link' s period receiver command e arrived taken unfaulted combined failed =>
      obtain ⟨hfront, rfl⟩ := ScriptedLink.receive_eq_ok_iff.1 arrived
      obtain ⟨hdecode, haccept⟩ := Receiver.take_eq_ok_iff.1 taken
      have hnext := ScriptedLink.nextState?_eq hfront hdecode
      have hperiod := (Receiver.accept_eq_ok haccept).2.1
      have hpass : Passes c link user 4 := passes_fault hfront taken unfaulted
      rw [hperiod, motion_dispatch, torque_dispatch] at combined
      obtain ⟨-, hdead⟩ := ScriptedLink.send_eq_error failed
      have hfirst : FailsFirst c link user .send :=
        ⟨hdead, passes_combine hc hpass hnext combined⟩
      exact ⟨.send, stopsAt_of_asked hfirst (by decide) rfl rfl hunsent hnext hperiod rfl rfl⟩

theorem iterate_again_of_terminal {r : Run ScriptedLink ρ} (h : r.loop.phase.isTerminal = true)
    (n : Nat) :
    Run.again^[n + 1] r = ⟨.error (.alreadyEnded r.loop.phase), r.loop, r.link, r.user, []⟩ := by
  have hagain : Run.again r =
      ⟨.error (.alreadyEnded r.loop.phase), r.loop, r.link, r.user, []⟩ := run_of_terminal h _ _
  induction n with
  | zero => exact hagain
  | succ n ih =>
      rw [Function.iterate_succ_apply', ih]
      exact hagain

theorem exists_endsAfter (hc : Fits c) (hphase : c.phase.isTerminal = false)
    (hnone : c.receiver.last = none) (link : ScriptedLink) (user : ρ) :
    ∃ xs c' link' user' stop, EndsAfter c link user (c.run link user) xs c' link' user' stop ∧
      (Breaks c' link' user' stop ∨ stop.result = .ok () ∧ ∀ k, ¬ Fails c' link' user' k) := by
  obtain ⟨_, hcourse⟩ := exists_course c link user
  obtain ⟨xs, c', link', user', stop, hon, hlast, hrun, hstop⟩ := hcourse.goesOn hc
  refine ⟨xs, c', link', user', stop, ⟨hon, hon.slots, ?_, hlast, ?_, ?_, ?_, ?_⟩, hstop⟩
  · rw [hon.takes.last_eq, hnone, Option.or_none, List.getLast?_map, Option.map_map]
    rfl
  · rw [run_eq hphase, hrun]
    rfl
  · rw [run_eq hphase, hrun]
    rfl
  · rw [run_eq hphase, hrun]
    rfl
  · rw [calls_run hphase, hrun, Run.after, Run.calls, List.filterMap_append, hon.filterMap_called]
    rfl

/-- A run ends in the first cycle in which a check fails, or in the cycle that sends its last
command if none does. After that nothing comes of running the loop again. -/
theorem first_failure_ends_run {mode : Mode} {motion torque : Option (Callback ρ)}
    {timeout : Duration} (hnew : new mode motion torque timeout = .ok c) (link : ScriptedLink)
    (user : ρ) : let r := c.run link user
    (∃ xs c' link' user' stop, EndsAfter c link user r xs c' link' user' stop ∧
      (r.result = .ok () ∧ r.loop.phase = .finished ∧ (∀ k, ¬ Fails c' link' user' k) ∨
        r.result ≠ .ok () ∧ r.loop.phase = .faulted ∧ ∃ k, StopsAt c' link' user' k stop)) ∧
    ∀ n, ∃ e : Failure, e.kind = .invalidArgument ∧
      Run.again^[n + 1] r = ⟨.error e, r.loop, r.link, r.user, []⟩ := by
  intro r
  have hfits := fits_of_new hnew
  have hinit : c.phase.isTerminal = false ∧ c.receiver.last = none := by
    obtain ⟨-, -, -, rfl⟩ := new_eq_ok_iff.1 hnew
    exact ⟨rfl, rfl⟩
  have hphase : r.loop.phase = endPhase r.result := by
    change (c.run link user).loop.phase = endPhase (c.run link user).result
    rw [run_eq hinit.1]
  have hterminal : r.loop.phase.isTerminal = true := by
    rw [hphase]
    cases r.result <;> rfl
  refine ⟨?_, fun n => ⟨.alreadyEnded r.loop.phase, rfl, iterate_again_of_terminal hterminal n⟩⟩
  obtain ⟨xs, c', link', user', stop, hends, hstop⟩ :=
    exists_endsAfter hfits hinit.1 hinit.2 link user
  refine ⟨xs, c', link', user', stop, hends, ?_⟩
  have hresult : r.result = stop.result := hends.result
  rcases hstop with hbreaks | ⟨hok, hpassed⟩
  · obtain ⟨hmode, hmotion, htorque⟩ := hends.slots
    obtain ⟨k, hk⟩ := hbreaks.stopsAt (hfits.of_eq hmode hmotion htorque)
    obtain ⟨e, he, -⟩ := hk.failed
    rw [he] at hresult
    exact .inr ⟨by simp [hresult], by rw [hphase, hresult]; rfl, k, hk⟩
  · rw [hok] at hresult
    exact .inl ⟨hresult, by rw [hphase, hresult]; rfl, hpassed⟩

/-- The second state is a duplicate, and its fault does not come to light. -/
theorem first_failure_ends_run_of_duplicate_fault :
    let hold : Callback Nat := fun s _ n =>
      (.ofSetpoint .jointPosition (.ongoing s.jointPositions), n + 1)
    let first : RobotState := { RobotState.initial with messageId := 5 }
    let link := ScriptedLink.ofStates [first, { first with fault := some .cartesianReflex }]
    let c : ControlLoop Nat :=
      ⟨.motionOnly .jointPosition, some hold, none, .new (.ofMillis 1000), .idle, 0⟩
    new (.motionOnly .jointPosition) (some hold) none (.ofMillis 1000) = .ok c ∧
      (∃ xs c' link' user' stop,
        EndsAfter c link 0 (c.run link 0) xs c' link' user' stop ∧
          ((c.run link 0).result = .ok () ∧ (c.run link 0).loop.phase = .finished ∧
              (∀ k, ¬ Fails c' link' user' k) ∨
            (c.run link 0).result ≠ .ok () ∧ (c.run link 0).loop.phase = .faulted ∧
              ∃ k, StopsAt c' link' user' k stop)) ∧
      ∀ n, ∃ e : Failure, e.kind = .invalidArgument ∧ Run.again^[n + 1] (c.run link 0) =
        ⟨.error e, (c.run link 0).loop, (c.run link 0).link, (c.run link 0).user, []⟩ := by
  intro hold first link c
  have hnew : new (.motionOnly .jointPosition) (some hold) none (.ofMillis 1000) = .ok c := rfl
  exact ⟨hnew, first_failure_ends_run hnew link 0⟩

end ControlLoop

end ArmSession
