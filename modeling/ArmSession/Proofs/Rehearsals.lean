import ArmSession.ScriptedLink

/-!
# The history of a rehearsed link

Whatever is done to a rehearsed link, in whatever order, its history tells its state. The entries
that receives find on a channel are the first of those that were pushed there, the log is what the
successful sends sent, and of the sends on an open link since a budget was set as many succeed as it
allows. From the first disconnection that a receive finds, every call is refused.
-/

namespace ArmSession

def ScriptedReply.answer (timeout : Duration) : ScriptedReply → Except LinkError Bytes
  | message m => .ok m
  | .timeout => .error (.timeout timeout)
  | disconnect => .error .closed

namespace ScriptedLink

inductive Operation
  | push (c : Channel) (reply : ScriptedReply)
  | send (c : Channel) (m : Bytes)
  | receive (c : Channel) (timeout : Duration)
  | failSendsAfter (count : Nat)

namespace Operation

def queue? : Operation → Option Channel
  | push c _ => some c
  | receive c _ => some c
  | _ => none

def pushed? (c : Channel) : Operation → Option ScriptedReply
  | push d reply => if d = c then some reply else none
  | _ => none

/-- Calls are what a link may refuse. -/
def isCall : Operation → Bool
  | send _ _ => true
  | receive _ _ => true
  | _ => false

def setsBudget : Operation → Bool
  | failSendsAfter _ => true
  | _ => false

end Operation

inductive Answer
  | done
  | sent (result : Except LinkError Unit)
  | received (result : Except LinkError Bytes)

def Answer.error? : Answer → Option LinkError
  | sent (.error e) => some e
  | received (.error e) => some e
  | _ => none

def perform (l : ScriptedLink) : Operation → Answer × ScriptedLink
  | .push c reply => (.done, l.push c reply)
  | .send c m => (.sent (send c m l).1, (send c m l).2)
  | .receive c timeout => (.received (receive c timeout l).1, (receive c timeout l).2)
  | .failSendsAfter count => (.done, l.failSendsAfter count)

structure Step where
  before : ScriptedLink
  op : Operation

namespace Step

def answer (s : Step) : Answer := (s.before.perform s.op).1

def after (s : Step) : ScriptedLink := (s.before.perform s.op).2

def found? (c : Channel) (s : Step) : Option ScriptedReply :=
  match s.op with
  | .receive d _ => if d = c ∧ s.before.closed = false then (s.before.queue c).head? else none
  | _ => none

def sent? (s : Step) : Option (Channel × Bytes) :=
  match s.op, s.answer with
  | .send c m, .sent (.ok ()) => some (c, m)
  | _, _ => none

def openSend? (s : Step) : Option (Except LinkError Unit) :=
  match s.answer with
  | .sent result => if s.before.closed then none else some result
  | _ => none

end Step

def steps (l : ScriptedLink) : List Operation → List Step
  | [] => []
  | op :: ops => ⟨l, op⟩ :: steps (Step.after ⟨l, op⟩) ops

def after (l : ScriptedLink) (ops : List Operation) : ScriptedLink :=
  ops.foldl (fun l op => Step.after ⟨l, op⟩) l

def pushedOn (c : Channel) (ops : List Operation) : List ScriptedReply :=
  ops.filterMap (·.pushed? c)

def foundOn (c : Channel) (steps : List Step) : List ScriptedReply := steps.filterMap (·.found? c)

def openSends (steps : List Step) : List (Except LinkError Unit) := steps.filterMap Step.openSend?

theorem queue_withQueue (l : ScriptedLink) (replies : List ScriptedReply) (c d : Channel) :
    (l.withQueue replies d).queue c = if d = c then replies else l.queue c := by
  cases c <;> cases d <;> rfl

theorem receive_of_open {l : ScriptedLink} (h : l.closed = false) (c : Channel)
    (timeout : Duration) : receive c timeout l = match l.queue c with
      | [] => (.error (.timeout timeout), l)
      | reply :: rest => (reply.answer timeout,
          { l.withQueue rest c with closed := reply = .disconnect }) := by
  rw [receive, h]
  cases l.queue c with
  | nil => rfl
  | cons reply rest => cases reply <;> cases c <;> simp [ScriptedReply.answer, withQueue, h]

namespace Step

variable (s : Step)

theorem refused_of_closed (h : s.before.closed = true) (hcall : s.op.isCall = true) :
    s.answer.error? = some .closed ∧ s.after = s.before := by
  obtain ⟨l, op⟩ := s
  replace h : l.closed = true := h
  cases op with
  | push => cases hcall
  | send => simp [answer, after, perform, send, h, Answer.error?]
  | receive => simp [answer, after, perform, receive, h, Answer.error?]
  | failSendsAfter => cases hcall

theorem found?_eq_none_of_closed (h : s.before.closed = true) (c : Channel) :
    s.found? c = none := by
  unfold found?
  split
  · exact if_neg (by simp [h])
  · rfl

/-- What is pushed comes last, and what is found was first. -/
theorem queue_after (c : Channel) : s.before.queue c ++ (s.op.pushed? c).toList =
    (s.found? c).toList ++ s.after.queue c := by
  obtain ⟨l, op⟩ := s
  cases op with
  | push d reply =>
      simp only [Operation.pushed?, found?, after, perform, push, queue_withQueue]
      by_cases h : d = c
      · subst h
        simp
      · simp [h]
  | send d m =>
      simp only [Operation.pushed?, found?, after, perform, send]
      split
      · simp
      · split <;> cases c <;> simp [queue]
  | failSendsAfter count =>
      cases c <;> simp [Operation.pushed?, found?, after, perform, failSendsAfter, queue]
  | receive d timeout =>
      cases hclosed : l.closed with
      | true =>
          rw [found?_eq_none_of_closed _ hclosed, (refused_of_closed _ hclosed rfl).2]
          simp [Operation.pushed?]
      | false =>
          simp only [Operation.pushed?, found?, after, perform, receive_of_open hclosed, hclosed,
            and_true]
          by_cases h : d = c
          · subst h
            cases hqueue : l.queue d with
            | nil => simp [hqueue]
            | cons reply rest => cases d <;> simp [withQueue, queue]
          · cases hqueue : l.queue d with
            | nil => simp [h]
            | cons reply rest => cases d <;> cases c <;> simp_all [withQueue, queue]

/-- No operation touches the queue of another channel. -/
theorem queue_of_elsewhere {c : Channel} (h : s.op.queue? ≠ some c) :
    s.after.queue c = s.before.queue c := by
  have hqueue := s.queue_after c
  have hpushed : s.op.pushed? c = none := by
    unfold Operation.pushed?
    split
    · next d reply hop => exact if_neg fun hd => h (by rw [hop, hd]; rfl)
    · rfl
  have hfound : s.found? c = none := by
    unfold found?
    split
    · next d timeout hop => exact if_neg fun hd => h (by rw [hop, hd.1]; rfl)
    · rfl
  rw [hpushed, hfound] at hqueue
  simpa using hqueue.symm

theorem received_of_open (h : s.before.closed = false) {c : Channel} {timeout : Duration}
    (hop : s.op = .receive c timeout) : s.answer = .received (match s.found? c with
      | some reply => reply.answer timeout
      | none => .error (.timeout timeout)) := by
  obtain ⟨l, op⟩ := s
  subst hop
  replace h : l.closed = false := h
  simp only [answer, perform, found?, receive_of_open h, h, and_self, if_true]
  cases l.queue c <;> rfl

theorem unchanged_of_not_found {c : Channel} {timeout : Duration}
    (hop : s.op = .receive c timeout) (hfound : s.found? c = none) : s.after = s.before := by
  obtain ⟨l, op⟩ := s
  subst hop
  cases hclosed : l.closed with
  | true => exact (refused_of_closed _ hclosed rfl).2
  | false =>
      have hempty : l.queue c = [] := by simpa [found?, hclosed] using hfound
      simp only [after, perform, receive_of_open hclosed, hempty]

/-- The link is closed by a receive that finds a disconnection, and by nothing else. -/
theorem closed_after : s.after.closed = true ↔
    s.before.closed = true ∨ ∃ c, s.found? c = some .disconnect := by
  obtain ⟨l, op⟩ := s
  cases hclosed : l.closed with
  | true =>
      refine iff_of_true ?_ (.inl rfl)
      cases op with
      | push c reply => cases c <;> exact hclosed
      | send => rwa [(refused_of_closed _ hclosed rfl).2]
      | receive => rwa [(refused_of_closed _ hclosed rfl).2]
      | failSendsAfter count => exact hclosed
  | false =>
      cases op with
      | push c reply => cases c <;> simp [after, perform, push, withQueue, found?, hclosed]
      | send c m =>
          simp only [after, perform, send, hclosed, found?]
          cases l.budget with
          | none => simp
          | some left => cases left <;> simp [hclosed]
      | receive c timeout =>
          simp only [after, perform, receive_of_open hclosed, found?, hclosed]
          cases hqueue : l.queue c with
          | nil =>
              simp only [hclosed, Bool.false_eq_true, false_or, false_iff, not_exists, and_true]
              intro d
              split
              · next h => simp [← h, hqueue]
              · simp
          | cons reply rest =>
              simp only [decide_eq_true_eq, Bool.false_eq_true, false_or, and_true]
              constructor
              · rintro rfl
                exact ⟨c, by simp [hqueue]⟩
              · rintro ⟨d, hd⟩
                split at hd
                · next h => simpa [← h, hqueue] using hd
                · cases hd
      | failSendsAfter count => simp [after, perform, failSendsAfter, found?, hclosed]

theorem sent_after : s.after.sent = s.before.sent ++ s.sent?.toList := by
  obtain ⟨l, op⟩ := s
  cases op with
  | push c reply => cases c <;> exact (List.append_nil _).symm
  | receive c timeout =>
      cases hclosed : l.closed with
      | true =>
          rw [(refused_of_closed _ hclosed rfl).2]
          exact (List.append_nil _).symm
      | false =>
          simp only [after, perform, receive_of_open hclosed]
          cases l.queue c with
          | nil => exact (List.append_nil _).symm
          | cons reply rest => cases c <;> exact (List.append_nil _).symm
  | send c m =>
      simp only [after, sent?, answer, perform, send]
      cases l.closed with
      | true => simp
      | false =>
          cases l.budget with
          | none => simp
          | some left => cases left <;> simp
  | failSendsAfter count => exact (List.append_nil _).symm

/-- A send that fails leaves no trace. -/
theorem unchanged_of_unsent {e : LinkError} (h : s.answer = .sent (.error e)) :
    s.after = s.before := by
  obtain ⟨l, op⟩ := s
  cases op with
  | push => cases h
  | receive => cases h
  | send c m =>
      simp only [answer, after, perform, send] at h ⊢
      cases hclosed : l.closed with
      | true => rfl
      | false =>
          simp only [hclosed] at h
          cases hbudget : l.budget with
          | none => simp [hbudget] at h
          | some left =>
              cases left with
              | zero => rfl
              | succ left => simp [hbudget] at h
  | failSendsAfter => cases h

/-- What an operation that sets no budget has to do with it: a send on an open link spends one of
it, or fails for want of it. -/
theorem budget_after (h : s.op.setsBudget = false) :
    s.openSend? = none ∧ s.after.budget = s.before.budget ∨
      (match s.before.budget with
        | none => s.openSend? = some (.ok ()) ∧ s.after.budget = none
        | some 0 => s.openSend? = some (.error (.io "injected send failure")) ∧
            s.after.budget = some 0
        | some (left + 1) => s.openSend? = some (.ok ()) ∧ s.after.budget = some left) := by
  obtain ⟨l, op⟩ := s
  cases op with
  | push c reply => cases c <;> exact .inl ⟨rfl, rfl⟩
  | receive c timeout =>
      refine .inl ⟨rfl, ?_⟩
      cases hclosed : l.closed with
      | true => rw [(refused_of_closed _ hclosed rfl).2]
      | false =>
          simp only [after, perform, receive_of_open hclosed]
          cases l.queue c with
          | nil => rfl
          | cons reply rest => cases c <;> rfl
  | send c m =>
      simp only [openSend?, answer, after, perform, send]
      cases l.closed with
      | true => exact .inl ⟨rfl, rfl⟩
      | false =>
          refine .inr ?_
          cases hbudget : l.budget with
          | none => exact ⟨rfl, rfl⟩
          | some left =>
              cases left with
              | zero => exact ⟨rfl, hbudget⟩
              | succ left => exact ⟨rfl, rfl⟩
  | failSendsAfter => cases h

end Step

variable (l : ScriptedLink) (ops : List Operation)

theorem queue_steps (c : Channel) :
    l.queue c ++ pushedOn c ops = foundOn c (l.steps ops) ++ (l.after ops).queue c := by
  induction ops generalizing l with
  | nil => exact List.append_nil _
  | cons op ops ih =>
      have hstep := Step.queue_after ⟨l, op⟩ c
      have hpushed : pushedOn c (op :: ops) = (op.pushed? c).toList ++ pushedOn c ops := by
        cases h : op.pushed? c <;> simp [pushedOn, h]
      have hfound : foundOn c (l.steps (op :: ops)) = (Step.found? c ⟨l, op⟩).toList ++
          foundOn c ((Step.after ⟨l, op⟩).steps ops) := by
        cases h : Step.found? c ⟨l, op⟩ <;> simp [foundOn, steps, h]
      rw [hpushed, hfound, ← List.append_assoc, hstep, List.append_assoc, List.append_assoc, ih]
      rfl

theorem sent_steps : (l.after ops).sent = l.sent ++ (l.steps ops).filterMap Step.sent? := by
  induction ops generalizing l with
  | nil => exact (List.append_nil _).symm
  | cons op ops ih =>
      have hsent : (l.steps (op :: ops)).filterMap Step.sent? = (Step.sent? ⟨l, op⟩).toList ++
          ((Step.after ⟨l, op⟩).steps ops).filterMap Step.sent? := by
        cases h : Step.sent? ⟨l, op⟩ <;> simp [steps, h]
      have hstep : (Step.after ⟨l, op⟩).sent = l.sent ++ (Step.sent? ⟨l, op⟩).toList :=
        Step.sent_after ⟨l, op⟩
      rw [hsent, ← List.append_assoc, ← hstep, ← ih]
      rfl

theorem closed_steps : (l.after ops).closed = true ↔
    l.closed = true ∨ ∃ s ∈ l.steps ops, ∃ c, s.found? c = some .disconnect := by
  induction ops generalizing l with
  | nil => simp [after, steps]
  | cons op ops ih =>
      have hrest := ih (Step.after ⟨l, op⟩)
      rw [Step.closed_after, or_assoc] at hrest
      simp only [steps, List.mem_cons, exists_eq_or_imp]
      exact hrest

theorem closed_of_mem {s : Step} (h : l.closed = true) (hs : s ∈ l.steps ops) :
    s.before.closed = true := by
  induction ops generalizing l with
  | nil => cases hs
  | cons op ops ih =>
      cases hs with
      | head => exact h
      | tail _ hs => exact ih _ ((Step.closed_after ⟨l, op⟩).2 (.inl h)) hs

theorem pairwise_closed : (l.steps ops).Pairwise fun s t =>
    (∃ c, s.found? c = some .disconnect) → t.before.closed = true := by
  induction ops generalizing l with
  | nil => exact .nil
  | cons op ops ih =>
      refine List.pairwise_cons.2 ⟨fun t ht hfound => ?_, ih _⟩
      exact closed_of_mem _ ops ((Step.closed_after ⟨l, op⟩).2 (.inr hfound)) ht

theorem openSends_cons (op : Operation) : openSends (l.steps (op :: ops)) =
    (Step.openSend? ⟨l, op⟩).toList ++ openSends ((Step.after ⟨l, op⟩).steps ops) := by
  cases h : Step.openSend? ⟨l, op⟩ <;> simp [openSends, steps, h]

variable {l ops}

theorem openSends_of_unlimited (hset : ∀ op ∈ ops, op.setsBudget = false) (h : l.budget = none) :
    ∀ result ∈ openSends (l.steps ops), result = .ok () := by
  induction ops generalizing l with
  | nil => simp [openSends, steps]
  | cons op ops ih =>
      obtain ⟨hop, hops⟩ := List.forall_mem_cons.1 hset
      rw [openSends_cons]
      have hstep := Step.budget_after ⟨l, op⟩ hop
      simp only [h] at hstep
      rcases hstep with ⟨hnone, hafter⟩ | ⟨hsent, hafter⟩
      · rw [hnone]
        exact ih hops hafter
      · rw [hsent]
        exact List.forall_mem_cons.2 ⟨rfl, ih hops hafter⟩

theorem openSends_of_budget (hset : ∀ op ∈ ops, op.setsBudget = false) {count : Nat}
    (h : l.budget = some count) {i : Nat} {result : Except LinkError Unit}
    (hi : (openSends (l.steps ops))[i]? = some result) :
    result = if i < count then .ok () else .error (.io "injected send failure") := by
  -- On the operations: a send on an open link takes one from the budget and one from the index.
  induction ops generalizing l count i with
  | nil => simp [openSends, steps] at hi
  | cons op ops ih =>
      obtain ⟨hop, hops⟩ := List.forall_mem_cons.1 hset
      rw [openSends_cons] at hi
      have hstep := Step.budget_after ⟨l, op⟩ hop
      simp only [h] at hstep
      rcases hstep with ⟨hnone, hafter⟩ | hspent
      · rw [hnone] at hi
        exact ih hops hafter hi
      · cases count with
        | zero =>
            obtain ⟨hfailed, hafter⟩ := hspent
            rw [hfailed] at hi
            cases i with
            | zero => exact (Option.some.inj hi).symm
            | succ i => simpa using ih hops hafter (i := i) hi
        | succ left =>
            obtain ⟨hsent, hafter⟩ := hspent
            rw [hsent] at hi
            cases i with
            | zero => exact (Option.some.inj hi).symm
            | succ i => simpa using ih hops hafter (i := i) hi

theorem messages_eq (l : ScriptedLink) (c : Channel) :
    l.messages c = (l.sent.filter (·.1 = c)).map Prod.snd := by
  unfold messages
  induction l.sent with
  | nil => rfl
  | cons entry rest ih => by_cases h : entry.1 = c <;> simp [h, ih]

structure Faithful (ops : List Operation) : Prop where
  /-- The entries found on a channel are the first of those pushed there, and the others wait. -/
  queue : ∀ c, pushedOn c ops = foundOn c (fresh.steps ops) ++ (fresh.after ops).queue c
  received : ∀ s ∈ fresh.steps ops, ∀ c timeout, s.op = .receive c timeout →
    s.before.closed = false → s.answer = .received (match s.found? c with
      | some reply => reply.answer timeout
      | none => .error (.timeout timeout))
  unfound : ∀ s ∈ fresh.steps ops, ∀ c timeout, s.op = .receive c timeout → s.found? c = none →
    s.after = s.before
  apart : ∀ s ∈ fresh.steps ops, ∀ c, s.op.queue? ≠ some c → s.after.queue c = s.before.queue c
  /-- The link is closed exactly if a receive has found a disconnection. -/
  closed : (fresh.after ops).closed = true ↔
    ∃ s ∈ fresh.steps ops, ∃ c, s.found? c = some .disconnect
  refused : (fresh.steps ops).Pairwise fun s t => (∃ c, s.found? c = some .disconnect) →
    t.op.isCall = true → t.answer.error? = some .closed ∧ t.after = t.before
  log : (fresh.after ops).sent = (fresh.steps ops).filterMap Step.sent?
  unsent : ∀ s ∈ fresh.steps ops, ∀ e, s.answer = .sent (.error e) → s.after = s.before
  /-- Of the sends on an open link since the budget was set, on whatever channel, as many succeed as
  it allows. -/
  budget : ∀ past count later, ops = past ++ .failSendsAfter count :: later →
    (∀ op ∈ later, op.setsBudget = false) → ∀ i result,
      (openSends ((fresh.after (past ++ [.failSendsAfter count])).steps later))[i]? = some result →
        result = if i < count then .ok () else .error (.io "injected send failure")
  unlimited : (∀ op ∈ ops, op.setsBudget = false) →
    ∀ result ∈ openSends (fresh.steps ops), result = .ok ()
  messages : ∀ c, (fresh.after ops).messages c =
    ((fresh.after ops).sent.filter (·.1 = c)).map Prod.snd
  count : ∀ c, (fresh.after ops).count c = ((fresh.after ops).messages c).length
  nothingSent : (fresh.after ops).nothingSent = true ↔ (fresh.after ops).sent = []

/-- Whatever is done to a fresh link, in whatever order. -/
theorem rehearsal_faithful (ops : List Operation) : Faithful ops where
  queue c := by
    rw [← queue_steps]
    cases c <;> rfl
  received s _ _ _ hop hopen := s.received_of_open hopen hop
  unfound s _ _ _ hop hfound := s.unchanged_of_not_found hop hfound
  apart s _ _ h := s.queue_of_elsewhere h
  closed := by
    rw [closed_steps]
    exact or_iff_right (by decide)
  refused := (fresh.pairwise_closed ops).imp fun h hfound hcall =>
    Step.refused_of_closed _ (h hfound) hcall
  log := fresh.sent_steps ops
  unsent s _ _ h := s.unchanged_of_unsent h
  budget past count _ _ hset _ _ hi := by
    refine openSends_of_budget hset ?_ hi
    rw [after, List.foldl_append]
    rfl
  unlimited hset := openSends_of_unlimited hset rfl
  messages c := messages_eq _ c
  count c := count_eq_length_messages _ c
  nothingSent := List.isEmpty_iff

end ScriptedLink

end ArmSession
