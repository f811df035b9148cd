import ArmSession.Failure
import ArmSession.RobotState

/-!
# Taking states in order

A receiver takes states from the realtime channel and remembers the last one it accepted. A
state is accepted only if its message id exceeds the one before it, so a receiver can accept
no more states than there are message ids above the last; this bounds every loop over it.
-/

namespace ArmSession

structure Receiver where
  timeout : Duration
  /-- Message id and time of the last accepted state. -/
  last : Option (UInt64 × Duration)
deriving DecidableEq

namespace Receiver

def new (timeout : Duration) : Receiver := ⟨timeout, none⟩

def period (r : Receiver) (s : RobotState) : Duration :=
  match r.last with
  | none => .zero
  | some (_, time) => s.time.since time

/-- The last message id, if `s` does not come after it. -/
def precededBy? (r : Receiver) (s : RobotState) : Option UInt64 :=
  match r.last with
  | none => none
  | some (id, _) => if s.messageId ≤ id then some id else none

def accept (r : Receiver) (s : RobotState) : Except Failure (Duration × Receiver) :=
  match r.precededBy? s with
  | some id => .error (.outOfOrder s.messageId id)
  | none => .ok (r.period s, { r with last := some (s.messageId, s.time) })

def take (r : Receiver) (m : Bytes) : Except Failure (RobotState × Duration × Receiver) :=
  match RobotState.decode m with
  | .error e => .error (.message e)
  | .ok s =>
    match r.accept s with
    | .error e => .error e
    | .ok (period, r) => .ok (s, period, r)

def next {σ : Type} [Link σ] (r : Receiver) (link : σ) :
    Except Failure (RobotState × Duration × Receiver) × σ :=
  match Link.receive .realtime r.timeout link with
  | (.error e, link) => (.error (.link e), link)
  | (.ok m, link) => (r.take m, link)

/-- How many states can still be accepted, and one more before the first. -/
def idsLeft (r : Receiver) : Nat :=
  match r.last with
  | none => UInt64.size + 1
  | some (id, _) => UInt64.size - id.toNat

theorem accept_eq_ok {r r' : Receiver} {s : RobotState} {period : Duration}
    (h : r.accept s = .ok (period, r')) :
    r.precededBy? s = none ∧ period = r.period s ∧
      r' = { r with last := some (s.messageId, s.time) } := by
  unfold accept at h
  cases hp : r.precededBy? s with
  | some id => simp [hp] at h
  | none => simp only [hp, Except.ok.injEq, Prod.mk.injEq] at h; exact ⟨rfl, h.1.symm, h.2.symm⟩

theorem idsLeft_lt_of_accept {r r' : Receiver} {s : RobotState} {period : Duration}
    (h : r.accept s = .ok (period, r')) : r'.idsLeft < r.idsLeft := by
  obtain ⟨hp, -, rfl⟩ := accept_eq_ok h
  have hs := s.messageId.toNat_lt_size
  unfold precededBy? at hp
  unfold idsLeft
  cases hl : r.last with
  | none => simp only; omega
  | some entry =>
      obtain ⟨id, time⟩ := entry
      simp only [hl, ite_eq_right_iff, reduceCtorEq, imp_false, UInt64.not_le] at hp
      have hlt : id.toNat < s.messageId.toNat := hp
      simp only
      omega

theorem idsLeft_lt_of_take {r r' : Receiver} {m : Bytes} {s : RobotState} {period : Duration}
    (h : r.take m = .ok (s, period, r')) : r'.idsLeft < r.idsLeft := by
  unfold take at h
  cases hd : RobotState.decode m with
  | error e => simp [hd] at h
  | ok t =>
      simp only [hd] at h
      cases ha : r.accept t with
      | error e => simp [ha] at h
      | ok answer =>
          obtain ⟨p, r₁⟩ := answer
          simp only [ha, Except.ok.injEq, Prod.mk.injEq] at h
          obtain ⟨rfl, rfl, rfl⟩ := h
          exact idsLeft_lt_of_accept ha

theorem idsLeft_lt_of_next {σ : Type} [Link σ] {r r' : Receiver} {link link' : σ}
    {s : RobotState} {period : Duration} (h : r.next link = (.ok (s, period, r'), link')) :
    r'.idsLeft < r.idsLeft := by
  unfold next at h
  split at h
  · simp at h
  · next m l _ =>
      simp only [Prod.mk.injEq] at h
      exact idsLeft_lt_of_take h.1

end Receiver

end ArmSession
