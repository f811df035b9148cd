import ArmSession.Reading
import ArmSession.Proofs.RunEvents
import ArmSession.Proofs.ScriptedRun

/-!
# What one loop takes from a link

A loop, whether it reads or controls, takes a stretch of the realtime queue: messages that its
receiver accepts, and after them at most one entry on which it ends. When that is a message, the
receiver refuses it, and the loop fails for this.
-/

namespace ArmSession

structure Stretch (r : Receiver) (link link' : ScriptedLink) (result : Except Failure Unit)
    (accepted : List Intake) (refused : List ScriptedReply) : Prop where
  queue : link.realtime = accepted.map (.message ·.message) ++ refused ++ link'.realtime
  short : refused.length ≤ 1
  taken : ∃ r', r.Takes accepted r' ∧
    ∀ m, .message m ∈ refused → ∃ e, r'.take m = .error e ∧ result = .error e

variable {r between : Receiver} {link link₁ link' : ScriptedLink} {result : Except Failure Unit}
  {accepted : List Intake} {refused : List ScriptedReply} {timeout : Duration} {m : Bytes}

theorem stretch_of_receive_error {e : LinkError}
    (h : ScriptedLink.receive .realtime timeout link = (.error e, link')) (r : Receiver)
    (result : Except Failure Unit) : ∃ refused, Stretch r link link' result [] refused := by
  obtain ⟨e', taken, rest, closed, he, hqueue, hlength, hnone⟩ :=
    ScriptedLink.receive_of_front?_eq_none timeout (ScriptedLink.front?_of_receive_eq_error h)
  cases he.symm.trans h
  exact ⟨taken, hqueue, hlength, r, .none r, fun m hm => absurd hm (hnone m)⟩

theorem stretch_of_take_error {e : Failure}
    (h : ScriptedLink.receive .realtime timeout link = (.ok m, link'))
    (htake : r.take m = .error e) : Stretch r link link' (.error e) [] [.message m] := by
  refine ⟨ScriptedLink.realtime_of_receive h, by simp, r, .none r, ?_⟩
  intro m' hm'
  cases List.mem_singleton.1 hm'
  exact ⟨e, htake, rfl⟩

theorem Stretch.nil (r : Receiver) (link : ScriptedLink) (result : Except Failure Unit) :
    Stretch r link link result [] [] :=
  ⟨rfl, by simp, r, .none r, by simp⟩

theorem Stretch.more {x : Intake} (hqueue : link.realtime = .message x.message :: link₁.realtime)
    (htake : r.take x.message = .ok (x.state, x.period, between))
    (h : Stretch between link₁ link' result accepted refused) :
    Stretch r link link' result (x :: accepted) refused := by
  obtain ⟨hrest, hshort, r', htakes, hrefused⟩ := h
  refine ⟨?_, hshort, r', .more htake htakes, hrefused⟩
  rw [hqueue, hrest]
  rfl

theorem Stretch.of_result {result' : Except Failure Unit}
    (h : Stretch r link link' result accepted refused)
    (hresult : ∀ e, result = .error e → result' = .error e) :
    Stretch r link link' result' accepted refused := by
  obtain ⟨hqueue, hshort, r', htakes, hrefused⟩ := h
  refine ⟨hqueue, hshort, r', htakes, ?_⟩
  intro m hm
  obtain ⟨e, htake, he⟩ := hrefused m hm
  exact ⟨e, htake, hresult e he⟩

theorem stretch_of_take {s : RobotState} {period : Duration}
    (h : ScriptedLink.receive .realtime timeout link = (.ok m, link'))
    (htake : r.take m = .ok (s, period, between)) (result : Except Failure Unit) :
    Stretch r link link' result [⟨m, s, period⟩] [] :=
  .more (ScriptedLink.realtime_of_receive h) htake (.nil between link' result)

/-- A state that a new receiver refuses does not come after the last state that it accepted. -/
theorem Stretch.out_of_order (h : Stretch (.new timeout) link link' result accepted refused)
    (hm : .message m ∈ refused) {s : RobotState} (hs : RobotState.decode m = .ok s) :
    ∃ x, accepted.getLast? = some x ∧ s.messageId ≤ x.state.messageId ∧
      result = .error (.outOfOrder s.messageId x.state.messageId) := by
  obtain ⟨r', htakes, hrefused⟩ := h.taken
  obtain ⟨e, he, hresult⟩ := hrefused m hm
  rcases Receiver.take_eq_error he with ⟨cause, hcause, -⟩ | ⟨t, id, ht, hid, rfl⟩
  · rw [hs] at hcause
    cases hcause
  · cases hs.symm.trans ht
    obtain ⟨time, hlast, hle⟩ := Receiver.precededBy?_eq_some hid
    have hnew : (Receiver.new timeout).last = none := rfl
    rw [htakes.last_eq, hnew, Option.or_none] at hlast
    obtain ⟨x, hx, hentry⟩ := Option.map_eq_some_iff.1 hlast
    cases hentry
    exact ⟨x, hx, hle, hresult⟩

section Control

variable {ρ : Type} {c : ControlLoop ρ} {user : ρ} {xs : List (Exchange ρ)}
  {run : Run ScriptedLink ρ}

/-- A cycle that breaks off takes at most one entry. A state that it accepts is not answered. -/
theorem ControlLoop.Breaks.stretch (h : Breaks c link user run) : ∃ accepted refused,
    Stretch c.receiver link run.link run.result accepted refused ∧
      accepted.length + refused.length ≤ 1 ∧
        run.received.map Prod.fst = accepted.map (·.state) := by
  cases h with
  | receive failed =>
      obtain ⟨refused, hrefused⟩ := stretch_of_receive_error failed c.receiver _
      exact ⟨[], refused, hrefused, by simpa using hrefused.short, rfl⟩
  | take arrived failed => exact ⟨[], _, stretch_of_take_error arrived failed, by simp, rfl⟩
  | fault arrived taken _ => exact ⟨_, [], stretch_of_take arrived taken _, by simp, rfl⟩
  | combine arrived taken _ _ =>
      refine ⟨_, [], stretch_of_take arrived taken _, by simp, ?_⟩
      rw [Run.received, Event.filterMap_received_cons, filterMap_received_dispatch]
      rfl
  | send arrived taken _ _ failed =>
      obtain ⟨rfl, -⟩ := ScriptedLink.send_eq_error failed
      refine ⟨_, [], stretch_of_take arrived taken _, by simp, ?_⟩
      rw [Run.received, Event.filterMap_received_cons, filterMap_received_dispatch]
      rfl

namespace ControlLoop.Course

/-- The states that are answered are those that are accepted, but for one on which the run may
break off. -/
theorem stretch (h : Course c link user xs run) : ∃ unanswered refused,
    Stretch c.receiver link run.link run.result (xs.map Exchange.toIntake ++ unanswered) refused ∧
      unanswered.length + refused.length ≤ 1 ∧
        run.received.map Prod.fst =
          (xs.map Exchange.toIntake ++ unanswered).map (·.state) := by
  induction h with
  | broken last => exact last.stretch
  | @finished c link link' user x receiver last _ =>
      obtain ⟨-, -, rest, hqueue, rfl⟩ := last.scripted
      refine ⟨[], [], .more hqueue last.taken (.nil _ _ _), by simp, ?_⟩
      rw [Run.received, last.filterMap_received]
      rfl
  | @again c link link' user x receiver xs run first _ _ ih =>
      obtain ⟨unanswered, refused, hstretch, hshort, hreceived⟩ := ih
      obtain ⟨-, -, rest, hqueue, rfl⟩ := first.scripted
      refine ⟨unanswered, refused, .more hqueue first.taken hstretch, hshort, ?_⟩
      rw [Run.received, Run.after, List.filterMap_append, first.filterMap_received,
        List.map_append, ← Run.received, hreceived]
      rfl

/-- The messages of the exchanges come off the front of the realtime queue, and after them at most
one more entry, in the cycle that breaks off. -/
theorem realtime_eq (h : Course c link user xs run) : ∃ broken,
    link.realtime = xs.map (.message ·.message) ++ broken ++ run.link.realtime ∧
      broken.length ≤ 1 := by
  obtain ⟨unanswered, refused, hstretch, hshort, -⟩ := h.stretch
  refine ⟨unanswered.map (.message ·.message) ++ refused, ?_, ?_⟩
  · rw [hstretch.queue, List.map_append, List.map_map]
    simp [Function.comp_def]
  · rw [List.length_append, List.length_map]
    exact hshort

theorem length_le (h : Course c link user xs run) : xs.length ≤ link.realtime.length := by
  obtain ⟨broken, hqueue, -⟩ := h.realtime_eq
  rw [hqueue]
  simp only [List.length_append, List.length_map]
  omega

end ControlLoop.Course

end Control

section Reading

variable {ρ : Type}

theorem stretch_of_next_error {e : Failure} (h : r.next link = (.error e, link')) :
    ∃ refused, Stretch r link link' (.error e) [] refused ∧ link'.sent = link.sent := by
  unfold Receiver.next at h
  cases hreceive : Link.receive .realtime r.timeout link with
  | mk answer after =>
  rw [hreceive] at h
  cases answer with
  | error cause =>
      cases h
      obtain ⟨refused, hstretch⟩ := stretch_of_receive_error hreceive r (.error (.link cause))
      exact ⟨refused, hstretch, ScriptedLink.sent_receive hreceive⟩
  | ok m =>
      simp only [Prod.mk.injEq] at h
      obtain ⟨htake, rfl⟩ := h
      exact ⟨_, stretch_of_take_error hreceive htake, ScriptedLink.sent_receive hreceive⟩

theorem take_of_next {s : RobotState} {period : Duration}
    (h : r.next link = (.ok (s, period, between), link')) : ∃ m,
    link.realtime = .message m :: link'.realtime ∧ r.take m = .ok (s, period, between) ∧
      link'.sent = link.sent := by
  unfold Receiver.next at h
  cases hreceive : Link.receive .realtime r.timeout link with
  | mk answer after =>
  rw [hreceive] at h
  cases answer with
  | error cause => cases h
  | ok m =>
      simp only [Prod.mk.injEq] at h
      obtain ⟨htake, rfl⟩ := h
      exact ⟨m, ScriptedLink.realtime_of_receive hreceive, htake,
        ScriptedLink.sent_receive hreceive⟩

theorem Reading.stretch (goesOn : Predicate ρ) (r : Receiver) (link : ScriptedLink) (user : ρ)
    (count : UInt64) {reading : Reading ScriptedLink ρ}
    (h : run goesOn r link user count = reading) : ∃ accepted refused,
    Stretch r link reading.link reading.result accepted refused ∧
      reading.seen = accepted.map (·.state) ∧ reading.link.sent = link.sent := by
  induction r, link, user, count using @Reading.run.induct ScriptedLink ρ _ goesOn
    generalizing reading with
  | case1 r link user count e link' hnext =>
      rw [run_of_error hnext] at h
      cases h
      obtain ⟨refused, hstretch, hsent⟩ := stretch_of_next_error hnext
      exact ⟨[], refused, hstretch, rfl, hsent⟩
  | case2 r link user count s period r' link' hnext user' hgoesOn ih =>
      rw [run_of_ok hnext, hgoesOn] at h
      cases h
      obtain ⟨m, hqueue, htake, hsent⟩ := take_of_next hnext
      obtain ⟨accepted, refused, hstretch, hseen, hrest⟩ := ih rfl
      refine ⟨⟨m, s, period⟩ :: accepted, refused, .more hqueue htake hstretch, ?_, ?_⟩
      · simp [hseen]
      · exact hrest.trans hsent
  | case3 r link user count s period r' link' hnext user' hstops =>
      rw [run_of_ok hnext, hstops] at h
      cases h
      obtain ⟨m, hqueue, htake, hsent⟩ := take_of_next hnext
      exact ⟨[⟨m, s, period⟩], [], .more hqueue htake (.nil _ _ _), rfl, hsent⟩

end Reading

end ArmSession
