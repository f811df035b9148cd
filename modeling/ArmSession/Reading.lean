import ArmSession.Log
import ArmSession.Receiver

/-!
# Reading states

A read shows every accepted state to a predicate, which may keep a state of its own, and ends
when the predicate has had enough. Nothing is sent, and faults that a state carries are for
the predicate to judge.
-/

namespace ArmSession

abbrev Predicate (ρ : Type) := RobotState → ρ → Bool × ρ

structure Reading (σ ρ : Type) where
  result : Except Failure Unit
  link : σ
  user : ρ
  seen : List RobotState
  count : UInt64

namespace Reading

variable {σ ρ : Type}

def log (reading : Reading σ ρ) : List Log.Line :=
  let ending : Log.Line := match reading.result with
    | .ok () => ⟨.debug, s!"Read loop finished after {reading.count} states"⟩
    | .error e => ⟨.error, s!"Read loop faulted after {reading.count} states: {e.text}"⟩
  [⟨.debug, "Read loop started"⟩, ending]

variable [Link σ]

def run (goesOn : Predicate ρ) (r : Receiver) (link : σ) (user : ρ) (count : UInt64) :
    Reading σ ρ :=
  match _h : r.next link with
  | (.error e, link) => ⟨.error e, link, user, [], count⟩
  | (.ok (s, _, r), link) =>
    match goesOn s user with
    | (true, user) =>
      let rest := run goesOn r link user (count + 1)
      { rest with seen := s :: rest.seen }
    | (false, user) => ⟨.ok (), link, user, [s], count + 1⟩
termination_by r.idsLeft
decreasing_by exact Receiver.idsLeft_lt_of_next _h

theorem run_of_error {goesOn : Predicate ρ} {r : Receiver} {link link' : σ} {user : ρ}
    {count : UInt64} {e : Failure} (h : r.next link = (.error e, link')) :
    run goesOn r link user count = ⟨.error e, link', user, [], count⟩ := by
  rw [run]
  split <;> simp_all

theorem run_of_ok {goesOn : Predicate ρ} {r r' : Receiver} {link link' : σ} {user : ρ}
    {count : UInt64} {s : RobotState} {period : Duration}
    (h : r.next link = (.ok (s, period, r'), link')) :
    run goesOn r link user count =
      match goesOn s user with
      | (true, user) =>
        let rest := run goesOn r' link' user (count + 1)
        { rest with seen := s :: rest.seen }
      | (false, user) => ⟨.ok (), link', user, [s], count + 1⟩ := by
  rw [run]
  split <;> simp_all

end Reading

def readLoop {σ ρ : Type} [Link σ] (timeout : Duration) (goesOn : Predicate ρ) (link : σ)
    (user : ρ) : Reading σ ρ :=
  Reading.run goesOn (.new timeout) link user 0

end ArmSession
