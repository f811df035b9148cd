import ArmSession.Net.Io

/-!
# Byte streams

A stream delivers bytes in chunks of any size and takes bytes in pieces of any size. Filling
a buffer reads until it is full, and writing repeats until everything is taken; both go on
after an interruption and stop at any other error.
-/

namespace ArmSession.Net

/-- What a read of a stream can meet. A chunk is never empty. -/
inductive Inflow
  | chunk (first : UInt8) (more : Bytes)
  /-- The peer has closed its side. -/
  | endOfStream
  | failed (e : IoError)
deriving DecidableEq

/-- What one write does: it takes some of the bytes that it is offered, or fails. -/
inductive WriteOutcome
  | takes (count : Nat)
  | failed (e : IoError)
deriving DecidableEq

structure Stream where
  inflow : List (Arrival Inflow)
  outcomes : List WriteOutcome
  /-- The bytes that the stream has taken. -/
  written : Bytes
deriving DecidableEq

def Inflow.bytes : Inflow → Bytes
  | chunk first more => first :: more
  | endOfStream => []
  | failed _ => []

def Inflow.ofBytes? : Bytes → Option Inflow
  | [] => none
  | first :: more => some (chunk first more)

def Stream.unread (s : Stream) : Bytes := s.inflow.flatMap fun a => a.event.bytes

inductive FillEnd
  | full
  | endOfStream
  | failed (e : IoError)
deriving DecidableEq

structure Filling where
  ending : FillEnd
  bytes : Bytes
  inflow : List (Arrival Inflow)
  elapsed : Nat
deriving DecidableEq

def Filling.after (chunk : Bytes) (waited : Nat) (f : Filling) : Filling :=
  { f with bytes := chunk ++ f.bytes, elapsed := waited + f.elapsed }

/-- What is left of a chunk, which is there at once. -/
def leftover : Bytes → List (Arrival Inflow)
  | [] => []
  | first :: more => [⟨0, .chunk first more⟩]

/-- What follows the end of a stream: the end again, unless something else is laid out. -/
def afterEnd : List (Arrival Inflow) → List (Arrival Inflow)
  | [] => [⟨0, .endOfStream⟩]
  | a :: rest => a :: rest

/-- Reads until `n` bytes are there. Each read waits for `limit` at most. -/
def fill (limit : Nat) : Nat → List (Arrival Inflow) → Filling
  | 0, inflow => ⟨.full, [], inflow, 0⟩
  | _ + 1, [] => ⟨.failed .blocked, [], [], limit⟩
  | n + 1, a :: rest =>
    if limit < a.wait then
      ⟨.failed .blocked, [], { a with wait := a.wait - limit } :: rest, limit⟩
    else match a.event with
      | .chunk first more =>
        if more.length ≤ n then
          (fill limit (n - more.length) rest).after (first :: more) a.wait
        else
          ⟨.full, first :: more.take n, leftover (more.drop n) ++ rest, a.wait⟩
      | .endOfStream => ⟨.endOfStream, [], afterEnd rest, a.wait⟩
      | .failed e =>
        if e.kind = .interrupted then (fill limit (n + 1) rest).after [] a.wait
        else ⟨.failed e, [], rest, a.wait⟩
termination_by structural _ inflow => inflow

structure Writing where
  result : Except IoError Unit
  taken : Bytes
  outcomes : List WriteOutcome

/-- Writes until everything is taken. Without an outcome everything is taken at once. -/
def writeAll : List WriteOutcome → Bytes → Writing
  | outcomes, [] => ⟨.ok (), [], outcomes⟩
  | [], bs => ⟨.ok (), bs, []⟩
  | .takes 0 :: rest, _ => ⟨.error .nothingTaken, [], rest⟩
  | .takes (n + 1) :: rest, bs =>
    let more := writeAll rest (bs.drop (n + 1))
    { more with taken := bs.take (n + 1) ++ more.taken }
  | .failed e :: rest, bs =>
    if e.kind = .interrupted then writeAll rest bs else ⟨.error e, [], rest⟩

/-- What was taken is the front of what was offered, and all of it on success. -/
theorem taken_writeAll (outcomes : List WriteOutcome) (bs : Bytes) :
    (writeAll outcomes bs).taken <+: bs ∧
      ((writeAll outcomes bs).result = .ok () → (writeAll outcomes bs).taken = bs) := by
  induction outcomes generalizing bs with
  | nil => cases bs <;> simp [writeAll]
  | cons o rest ih =>
      cases bs with
      | nil => simp [writeAll]
      | cons b bs =>
          cases o with
          | takes n =>
              cases n with
              | zero => simp [writeAll]
              | succ n =>
                  have h := ih ((b :: bs).drop (n + 1))
                  simp only [writeAll]
                  constructor
                  · conv => rhs; rw [← List.take_append_drop (n + 1) (b :: bs)]
                    exact (List.prefix_append_right_inj _).2 h.1
                  · intro hr
                    rw [h.2 hr, List.take_append_drop]
          | failed e =>
              by_cases he : e.kind = .interrupted
              · simpa [writeAll, he] using ih (b :: bs)
              · simp [writeAll, he]

def Stream.write (bs : Bytes) (s : Stream) : Except IoError Unit × Stream :=
  let w := writeAll s.outcomes bs
  (w.result, { s with outcomes := w.outcomes, written := s.written ++ w.taken })

end ArmSession.Net
