import ArmSession.Receiver

/-!
# What a receiver takes

A receiver takes messages one after the other. `Takes` follows it over the messages that it
accepts: each holds a state, and the message ids of these states are strictly increasing, from
the last state accepted before on.
-/

namespace ArmSession

/-- An accepted message: the state in it, and the time since the state before. -/
structure Intake where
  message : Bytes
  state : RobotState
  period : Duration

namespace Receiver

inductive Takes : Receiver → List Intake → Receiver → Prop
  | none (r : Receiver) : Takes r [] r
  | more {r between r' : Receiver} {x : Intake} {xs : List Intake}
      (first : r.take x.message = .ok (x.state, x.period, between))
      (rest : Takes between xs r') : Takes r (x :: xs) r'

variable {r r' : Receiver} {xs : List Intake}

theorem take_eq_ok_iff {m : Bytes} {s : RobotState} {period : Duration} :
    r.take m = .ok (s, period, r') ↔
      RobotState.decode m = .ok s ∧ r.accept s = .ok (period, r') := by
  constructor
  · intro h
    unfold take at h
    cases hd : RobotState.decode m with
    | error e => simp [hd] at h
    | ok t =>
        cases ha : r.accept t with
        | error e => simp [hd, ha] at h
        | ok answer =>
            obtain ⟨p, r₁⟩ := answer
            simp only [hd, ha, Except.ok.injEq, Prod.mk.injEq] at h
            obtain ⟨rfl, rfl, rfl⟩ := h
            exact ⟨rfl, ha⟩
  · rintro ⟨hd, ha⟩
    simp [take, hd, ha]

/-- A message is refused for its form, or for its place after the last state accepted. -/
theorem take_eq_error {m : Bytes} {e : Failure} (h : r.take m = .error e) :
    (∃ cause, RobotState.decode m = .error cause ∧ e = .message cause) ∨
      ∃ s id, RobotState.decode m = .ok s ∧ r.precededBy? s = some id ∧
        e = .outOfOrder s.messageId id := by
  unfold take at h
  cases hd : RobotState.decode m with
  | error cause =>
      simp only [hd, Except.error.injEq] at h
      exact .inl ⟨cause, rfl, h.symm⟩
  | ok s =>
      cases hp : r.precededBy? s with
      | none => simp [hd, accept, hp] at h
      | some id =>
          simp only [hd, accept, hp, Except.error.injEq] at h
          exact .inr ⟨s, id, rfl, hp, h.symm⟩

section Next

variable {σ : Type} [Link σ] {link link' : σ} {m : Bytes}

theorem next_of_receive_error {e : LinkError}
    (h : Link.receive .realtime r.timeout link = (.error e, link')) :
    r.next link = (.error (.link e), link') := by
  unfold next
  rw [h]

theorem next_of_receive_ok (h : Link.receive .realtime r.timeout link = (.ok m, link')) :
    r.next link = (r.take m, link') := by
  unfold next
  rw [h]

theorem exists_take_of_next {s : RobotState} {period : Duration}
    (h : r.next link = (.ok (s, period, r'), link')) : ∃ m, r.take m = .ok (s, period, r') := by
  cases hreceive : Link.receive .realtime r.timeout link with
  | mk answer between =>
  cases answer with
  | error e =>
      rw [next_of_receive_error hreceive] at h
      cases h
  | ok m =>
      rw [next_of_receive_ok hreceive] at h
      exact ⟨m, (Prod.mk.inj h).1⟩

end Next

theorem precededBy?_eq_some {s : RobotState} {id : UInt64} (h : r.precededBy? s = some id) :
    ∃ time, r.last = some (id, time) ∧ s.messageId ≤ id := by
  unfold precededBy? at h
  cases hl : r.last with
  | none => simp [hl] at h
  | some entry =>
      obtain ⟨last, time⟩ := entry
      simp only [hl, Option.ite_none_right_eq_some, Option.some.injEq] at h
      obtain ⟨hle, rfl⟩ := h
      exact ⟨time, rfl, hle⟩

theorem precededBy?_eq_none_iff {s : RobotState} : r.precededBy? s = .none ↔
    ∀ entry, r.last = some entry → entry.1 < s.messageId := by
  unfold precededBy?
  cases hl : r.last with
  | none => simp
  | some entry =>
      obtain ⟨id, time⟩ := entry
      simp [UInt64.not_le]

theorem last_of_take {m : Bytes} {s : RobotState} {period : Duration}
    (h : r.take m = .ok (s, period, r')) : r'.last = some (s.messageId, s.time) := by
  rw [(accept_eq_ok (take_eq_ok_iff.1 h).2).2.2]

theorem timeout_of_take {m : Bytes} {s : RobotState} {period : Duration}
    (h : r.take m = .ok (s, period, r')) : r'.timeout = r.timeout := by
  rw [(accept_eq_ok (take_eq_ok_iff.1 h).2).2.2]

namespace Takes

theorem decode_message (h : Takes r xs r') {x : Intake} (hx : x ∈ xs) :
    RobotState.decode x.message = .ok x.state := by
  induction h with
  | none => cases hx
  | more first _ ih =>
      cases hx with
      | head => exact (take_eq_ok_iff.1 first).1
      | tail _ hx => exact ih hx

/-- The id of the last state accepted before counts as one of the ids. -/
theorem pairwise_ids_from (h : Takes r xs r') :
    ((r.last.map Prod.fst).toList ++ xs.map (·.state.messageId)).Pairwise (· < ·) := by
  induction h with
  | none r => cases r.last <;> simp
  | @more r between r' x xs first _ ih =>
      rw [last_of_take first] at ih
      cases hl : r.last with
      | none => simpa using ih
      | some entry =>
          have hlt : entry.1 < x.state.messageId := precededBy?_eq_none_iff.1
            (accept_eq_ok (take_eq_ok_iff.1 first).2).1 entry hl
          simp only [Option.map_some, Option.toList_some, List.singleton_append,
            List.map_cons] at ih ⊢
          refine List.pairwise_cons.2 ⟨?_, ih⟩
          intro id hid
          cases hid with
          | head => exact hlt
          | tail _ hid => exact UInt64.lt_trans hlt ((List.pairwise_cons.1 ih).1 id hid)

/-- No state is accepted that does not come after all states accepted before it. -/
theorem pairwise_ids (h : Takes r xs r') : (xs.map (·.state.messageId)).Pairwise (· < ·) :=
  (List.pairwise_append.1 h.pairwise_ids_from).2.1

theorem last_eq (h : Takes r xs r') : r'.last =
    (xs.getLast?.map fun x => (x.state.messageId, x.state.time)).or r.last := by
  induction h with
  | none => simp
  | @more r between r' x xs first _ ih =>
      rw [ih, last_of_take first, List.getLast?_cons]
      cases xs.getLast? <;> simp

end Takes

end Receiver

end ArmSession
