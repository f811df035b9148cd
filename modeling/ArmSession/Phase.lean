/-!
# Phases of a control loop

A loop waits for a state, asks the callbacks, checks what they answer and sends it, over and
over. It ends finished or faulted, and stays so.
-/

namespace ArmSession

inductive Phase
  | idle
  | awaitState
  | dispatch
  | validate
  | send
  | finishing
  | finished
  | faulted
deriving DecidableEq

namespace Phase

def all : List Phase :=
  [idle, awaitState, dispatch, validate, send, finishing, finished, faulted]

def isTerminal : Phase → Bool
  | finished => true
  | faulted => true
  | _ => false

def name : Phase → String
  | idle => "Idle"
  | awaitState => "AwaitState"
  | dispatch => "Dispatch"
  | validate => "Validate"
  | send => "Send"
  | finishing => "Finishing"
  | finished => "Finished"
  | faulted => "Faulted"

end Phase

end ArmSession
