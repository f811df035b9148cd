import ArmSession.Toml.Number
import ArmSession.Toml.Value

/-!
# Bare values

Numbers, booleans, dates and times stand without quotes. Dates have to be in the calendar and
times on the clock.
-/

namespace ArmSession.Toml

def fixedDigits? (width : Nat) (cs : List Char) : Option (Nat × List Char) :=
  let digits := cs.take width
  if digits.length = width ∧ digits.all (isDigitIn 10) then
    some (valueOfDigits 10 digits, cs.drop width)
  else none

def isLeapYear (year : Nat) : Bool := year % 4 = 0 && (year % 100 ≠ 0 || year % 400 = 0)

def daysIn (year month : Nat) : Nat :=
  if month = 2 then if isLeapYear year then 29 else 28
  else if month = 4 ∨ month = 6 ∨ month = 9 ∨ month = 11 then 30
  else 31

/-- What follows a date. -/
def date? (cs : List Char) : Option (List Char) := do
  let (year, '-' :: cs) ← fixedDigits? 4 cs | none
  let (month, '-' :: cs) ← fixedDigits? 2 cs | none
  let (day, cs) ← fixedDigits? 2 cs
  if 1 ≤ month ∧ month ≤ 12 ∧ 1 ≤ day ∧ day ≤ daysIn year month then some cs else none

/-- What follows the seconds and their fraction, which are both optional. -/
def seconds? : List Char → Option (List Char)
  | ':' :: cs => do
    let (second, cs) ← fixedDigits? 2 cs
    if 60 < second then none
    else match cs with
      | '.' :: cs =>
        if (cs.takeWhile (isDigitIn 10)).isEmpty then none else some (cs.dropWhile (isDigitIn 10))
      | cs => some cs
  | cs => some cs

def time? (cs : List Char) : Option (List Char) := do
  let (hour, ':' :: cs) ← fixedDigits? 2 cs | none
  let (minute, cs) ← fixedDigits? 2 cs
  if 23 < hour ∨ 59 < minute then none else seconds? cs

def isOffset : List Char → Bool
  | [] => true
  | [c] => c = 'Z' || c = 'z'
  | c :: cs =>
    (c = '+' || c = '-') && match fixedDigits? 2 cs with
      | some (hour, ':' :: cs) =>
        hour ≤ 23 && match fixedDigits? 2 cs with
          | some (minute, []) => minute ≤ 59
          | _ => false
      | _ => false

def isDateSeparator (c : Char) : Bool := c = 'T' || c = 't' || c = ' '

/-- A date, a time, or a date and a time, which may tell its offset. -/
def isMoment (cs : List Char) : Bool :=
  match date? cs with
  | some [] => true
  | some (c :: cs) =>
    isDateSeparator c && match time? cs with
      | some rest => isOffset rest
      | none => false
  | none =>
    match time? cs with
    | some [] => true
    | _ => false

def bareValue? (cs : List Char) : Option Value :=
  if cs = ['t', 'r', 'u', 'e'] then some (.boolean true)
  else if cs = ['f', 'a', 'l', 's', 'e'] then some (.boolean false)
  else match integer? cs with
    | some i => if isStorable i then some (.integer i) else none
    | none =>
      if isFloat cs then some (.float (String.ofList cs))
      else if isMoment cs then some (.moment (String.ofList cs))
      else none

def isWordChar (c : Char) : Bool := !("=,[]\x7b\x7d \t#\x0d\n".toList.contains c)

/-- The bare word in front. One space may join a date to its time. -/
def bareWord (cs : List Char) : List Char × List Char :=
  let word := cs.takeWhile isWordChar
  match cs.dropWhile isWordChar with
  | ' ' :: c :: rest =>
    if isWordChar c && date? word = some [] then
      (word ++ ' ' :: (c :: rest).takeWhile isWordChar, (c :: rest).dropWhile isWordChar)
    else (word, ' ' :: c :: rest)
  | rest => (word, rest)

end ArmSession.Toml
