import ArmSession.ScriptedLink
import ArmSession.Proofs.RunEvents

/-!
# Runs on rehearsed links

What the calls of a scripted link do to it, and from this what a run does to its log: it adds the
commands of its exchanges, in order, and nothing else.
-/

namespace ArmSession

namespace ScriptedLink

variable {l l' : ScriptedLink} {c : Channel}

/-- A link on which states arrive, and then nothing more. -/
def ofStates (states : List RobotState) : ScriptedLink :=
  { fresh with realtime := states.map (.message ·.encode) }

def front? (l : ScriptedLink) (c : Channel) : Option Bytes :=
  if l.closed then none
  else match l.queue c with
    | .message m :: _ => some m
    | _ => none

theorem front?_eq_some_iff {m : Bytes} : l.front? c = some m ↔
    l.closed = false ∧ ∃ rest, l.queue c = .message m :: rest := by
  unfold front?
  cases l.closed with
  | true => simp
  | false =>
      cases l.queue c with
      | nil => simp
      | cons reply rest => cases reply <;> simp

theorem receive_of_front? {timeout : Duration} {m : Bytes} (h : l.front? c = some m) :
    receive c timeout l = (.ok m, l.withQueue (l.queue c).tail c) := by
  obtain ⟨hclosed, rest, hqueue⟩ := front?_eq_some_iff.1 h
  simp [receive, hclosed, hqueue]

/-- A receive that fails takes at most one entry, which is no message, and touches nothing else
but the closed flag. -/
theorem receive_of_front?_eq_none (timeout : Duration) (h : l.front? c = none) :
    ∃ e taken rest closed, receive c timeout l = (.error e, { l.withQueue rest c with closed }) ∧
      l.queue c = taken ++ rest ∧ taken.length ≤ 1 ∧ ∀ m, .message m ∉ taken := by
  have hsame : { l.withQueue (l.queue c) c with closed := l.closed } = l := by cases c <;> rfl
  unfold front? at h
  cases hclosed : l.closed with
  | true =>
      refine ⟨.closed, [], l.queue c, l.closed, ?_, rfl, by simp, by simp⟩
      rw [hsame]
      simp [receive, hclosed]
  | false =>
      cases hqueue : l.queue c with
      | nil =>
          refine ⟨.timeout timeout, [], l.queue c, l.closed, ?_, by simp [hqueue], by simp, by simp⟩
          rw [hsame]
          simp [receive, hclosed, hqueue]
      | cons reply rest =>
          cases reply with
          | message m => simp [hclosed, hqueue] at h
          | timeout =>
              refine ⟨.timeout timeout, [.timeout], rest, false, ?_, rfl, by simp, by simp⟩
              cases c <;> simp [receive, hclosed, hqueue, withQueue]
          | disconnect =>
              refine ⟨.closed, [.disconnect], rest, true, ?_, rfl, by simp, by simp⟩
              simp [receive, hclosed, hqueue]

theorem receive_eq_ok_iff {timeout : Duration} {m : Bytes} :
    receive c timeout l = (.ok m, l') ↔
      l.front? c = some m ∧ l' = l.withQueue (l.queue c).tail c := by
  constructor
  · intro h
    cases hf : l.front? c with
    | none =>
        obtain ⟨e, taken, rest, closed, he, -⟩ := receive_of_front?_eq_none timeout hf
        rw [he] at h
        cases h
    | some m' =>
        rw [receive_of_front? hf] at h
        cases h
        exact ⟨rfl, rfl⟩
  · rintro ⟨hf, rfl⟩
    exact receive_of_front? hf

theorem realtime_of_receive {timeout : Duration} {m : Bytes}
    (h : receive .realtime timeout l = (.ok m, l')) : l.realtime = .message m :: l'.realtime := by
  obtain ⟨hfront, rfl⟩ := receive_eq_ok_iff.1 h
  obtain ⟨-, rest, hqueue⟩ := front?_eq_some_iff.1 hfront
  rw [show l.realtime = .message m :: rest from hqueue, hqueue]
  rfl

theorem front?_of_receive_eq_error {timeout : Duration} {e : LinkError}
    (h : receive c timeout l = (.error e, l')) : l.front? c = none := by
  cases hf : l.front? c with
  | none => rfl
  | some m =>
      rw [receive_of_front? hf] at h
      cases h

theorem sent_receive {timeout : Duration} {answer : Except LinkError Bytes}
    (h : receive c timeout l = (answer, l')) : l'.sent = l.sent := by
  cases hf : l.front? c with
  | none =>
      obtain ⟨e, taken, rest, closed, he, -⟩ := receive_of_front?_eq_none timeout hf
      cases he.symm.trans h
      cases c <;> rfl
  | some m =>
      cases (receive_of_front? hf).symm.trans h
      cases c <;> rfl

theorem send_eq_ok_iff {m : Bytes} : send c m l = (.ok (), l') ↔
    l.closed = false ∧ l.budget ≠ some 0 ∧
      l' = { l with sent := l.sent ++ [(c, m)], budget := l.budget.map (· - 1) } := by
  unfold send
  cases l.closed with
  | true => simp
  | false =>
      cases l.budget with
      | none => simp [eq_comm]
      | some left => cases left <;> simp [eq_comm]

theorem send_eq_error {m : Bytes} {e : LinkError} (h : send c m l = (.error e, l')) :
    l' = l ∧ (l.closed = true ∨ l.budget = some 0) := by
  unfold send at h
  cases hclosed : l.closed with
  | true => simp [hclosed] at h; exact ⟨h.2.symm, .inl rfl⟩
  | false =>
      cases hbudget : l.budget with
      | none => simp [hclosed, hbudget] at h
      | some left =>
          cases left with
          | zero => simp [hclosed, hbudget] at h; exact ⟨h.2.symm, .inr rfl⟩
          | succ left => simp [hclosed, hbudget] at h

end ScriptedLink

namespace ControlLoop

variable {ρ : Type} {c : ControlLoop ρ} {link link' : ScriptedLink} {user : ρ}

theorem Exchanges.scripted {x : Exchange ρ} {receiver : Receiver}
    (h : Exchanges c link user x receiver link') :
    link.front? .realtime = some x.message ∧ link.budget ≠ some 0 ∧
      ∃ rest, link.realtime = .message x.message :: rest ∧
        link' = { link with
          realtime := rest
          sent := link.sent ++ [(.realtime, x.command.encode)]
          budget := link.budget.map (· - 1) } := by
  obtain ⟨between, hreceive, hsend⟩ := h.carried
  obtain ⟨hfront, rfl⟩ := ScriptedLink.receive_eq_ok_iff.1 hreceive
  obtain ⟨-, hbudget, rfl⟩ := ScriptedLink.send_eq_ok_iff.1 hsend
  obtain ⟨-, rest, hqueue⟩ := ScriptedLink.front?_eq_some_iff.1 hfront
  exact ⟨hfront, hbudget, rest, hqueue, by rw [hqueue]; rfl⟩

theorem exchanges_of_front? {x : Exchange ρ} {receiver : Receiver}
    (hfront : link.front? .realtime = some x.message) (hbudget : link.budget ≠ some 0)
    (htaken : c.receiver.take x.message = .ok (x.state, x.period, receiver))
    (hfault : x.state.fault = none) (hasked : x.answers = c.dispatch x.state x.period user)
    (hcombined : combine c.mode x.state.messageId x.answers.motion x.answers.torque =
      .ok x.command) :
    Exchanges c link user x receiver { link with
      realtime := link.realtime.tail
      sent := link.sent ++ [(.realtime, x.command.encode)]
      budget := link.budget.map (· - 1) } := by
  have hclosed := (ScriptedLink.front?_eq_some_iff.1 hfront).1
  refine ⟨⟨_, ScriptedLink.receive_of_front? hfront, ?_⟩, htaken, hfault, hasked, hcombined⟩
  exact ScriptedLink.send_eq_ok_iff.2 ⟨hclosed, hbudget, rfl⟩

theorem Breaks.sent_eq {run : Run ScriptedLink ρ} (h : Breaks c link user run) :
    run.link.sent = link.sent := by
  cases h with
  | receive failed => exact ScriptedLink.sent_receive failed
  | take arrived _ => exact ScriptedLink.sent_receive arrived
  | fault arrived _ _ => exact ScriptedLink.sent_receive arrived
  | combine arrived _ _ _ => exact ScriptedLink.sent_receive arrived
  | send arrived _ _ _ failed =>
      obtain ⟨rfl, -⟩ := ScriptedLink.send_eq_error failed
      exact ScriptedLink.sent_receive arrived

/-- The log grows by the commands of the exchanges, all of them on the realtime channel. -/
theorem Course.sent_eq {xs : List (Exchange ρ)} {run : Run ScriptedLink ρ}
    (h : Course c link user xs run) :
    run.link.sent = link.sent ++ xs.map fun x => (.realtime, x.command.encode) := by
  induction h with
  | broken last => simpa using last.sent_eq
  | finished last _ =>
      obtain ⟨-, -, rest, -, rfl⟩ := last.scripted
      rfl
  | again first _ _ ih =>
      obtain ⟨-, -, rest, -, rfl⟩ := first.scripted
      rw [Run.after, ih]
      simp

/-- The log of the link grows by the commands that the run reports. -/
theorem sent_run (hphase : c.phase.isTerminal = false) (link : ScriptedLink) (user : ρ) :
    (c.run link user).link.sent =
      link.sent ++ (c.run link user).commands.map fun command => (.realtime, command.encode) := by
  obtain ⟨xs, hxs⟩ := exists_course c link user
  rw [commands_run hphase, hxs.commands_eq, List.map_map, run_eq hphase]
  exact hxs.sent_eq

end ControlLoop

end ArmSession
