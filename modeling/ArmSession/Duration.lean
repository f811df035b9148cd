/-!
# Spans of time

A span is a whole number of nanoseconds. Subtraction stops at zero, so a clock that runs
backwards gives an empty span, and the text of a span uses the largest unit that reaches one.
-/

namespace ArmSession

structure Duration where
  nanos : Nat
deriving DecidableEq

namespace Duration

def zero : Duration := ⟨0⟩

def nanosPerSecond : Nat := 1000000000

def ofMillis (ms : UInt64) : Duration := ⟨ms.toNat * 1000000⟩

def ofMicros (us : UInt64) : Duration := ⟨us.toNat * 1000⟩

/-- Whole microseconds, cut to the 64 bits that a message has for them. -/
def micros (d : Duration) : UInt64 := UInt64.ofNat (d.nanos / 1000)

/-- The span from `earlier` to `later`, empty when `later` comes first. -/
def since (later earlier : Duration) : Duration := ⟨later.nanos - earlier.nanos⟩

theorem since_nanos (later earlier : Duration) :
    (later.since earlier).nanos = later.nanos - earlier.nanos := rfl

/-- The digits after the point of `part / 10 ^ width`, without closing zeros. -/
def fractionDigits (width part : Nat) : List Char :=
  let digits := (Nat.toDigits 10 part).leftpad width '0'
  (digits.reverse.dropWhile (· = '0')).reverse

def decimal (width value : Nat) : String :=
  let unit := Nat.pow 10 width
  let digits := fractionDigits width (value % unit)
  toString (value / unit) ++ if digits.isEmpty then "" else "." ++ String.ofList digits

def text (d : Duration) : String :=
  if nanosPerSecond ≤ d.nanos then decimal 9 d.nanos ++ "s"
  else if 1000000 ≤ d.nanos then decimal 6 d.nanos ++ "ms"
  else if 1000 ≤ d.nanos then decimal 3 d.nanos ++ "µs"
  else decimal 0 d.nanos ++ "ns"

end Duration

end ArmSession
