import ArmSession.Failure
import ArmSession.Log

/-!
# Realtime scheduling

Before torques are controlled the thread asks for the highest priority, once. A scheduler is
given by its answer to each request in turn and counts the requests.
-/

namespace ArmSession

structure Scheduler where
  answer : Nat → Except String Unit
  requests : Nat

namespace Scheduler

def always (answer : Except String Unit) : Scheduler := ⟨fun _ => answer, 0⟩

def elevate (s : Scheduler) : Except String Unit × Scheduler :=
  (s.answer s.requests, { s with requests := s.requests + 1 })

structure Acquired where
  result : Except Failure Unit
  scheduler : Scheduler
  log : List Log.Line

def acquire (policy : Policy) (s : Scheduler) : Acquired :=
  match s.elevate with
  | (.ok (), s) => ⟨.ok (), s, [⟨.info, "Control thread priority set to MAX (realtime)"⟩]⟩
  | (.error reason, s) =>
    match policy with
    | .enforce => ⟨.error (.realtimeRefused reason), s, []⟩
    | .ignore => ⟨.ok (), s, [⟨.warn,
        s!"Failed to set realtime scheduling: {reason}. Continuing at default priority"⟩]⟩

end Scheduler

end ArmSession
