import ArmSession.Digits

/-!
# Numbers

Digits may be grouped by single underscores, decimal numbers do not begin with a spare zero,
and only decimal numbers have a sign. An integer has to fit 128 bits, as a signed or as an
unsigned one, and a float has to be nearer to a double than to infinity.
-/

namespace ArmSession.Toml

def isDigitIn (base : Nat) (c : Char) : Bool :=
  match digitValue? c with
  | some d => d < base
  | none => false

/-- Digits, with single underscores between digits only. -/
def isGrouped (isDigit : Char → Bool) : List Char → Bool
  | [] => false
  | [c] => isDigit c
  | c :: '_' :: cs => isDigit c && isGrouped isDigit cs
  | c :: cs => isDigit c && isGrouped isDigit cs

def valueOfDigits (base : Nat) (cs : List Char) : Nat :=
  ofDigits base (cs.filterMap digitValue?)

def natural? (base : Nat) (cs : List Char) : Option Nat :=
  if isGrouped (isDigitIn base) cs then some (valueOfDigits base cs) else none

def decimal? : List Char → Option Nat
  | '0' :: _ :: _ => none
  | cs => natural? 10 cs

def signed : List Char → Bool × List Char
  | '-' :: cs => (true, cs)
  | '+' :: cs => (false, cs)
  | cs => (false, cs)

def integer? : List Char → Option Int
  | '0' :: 'x' :: cs => (natural? 16 cs).map Int.ofNat
  | '0' :: 'o' :: cs => (natural? 8 cs).map Int.ofNat
  | '0' :: 'b' :: cs => (natural? 2 cs).map Int.ofNat
  | cs =>
    let (negative, digits) := signed cs
    (decimal? digits).map fun n => if negative then -Int.ofNat n else Int.ofNat n

def isDigitPart (c : Char) : Bool := isDigitIn 10 c || c = '_'

/-- Integers are held in 128 bits, which have a sign only if the integer needs it. -/
def isStorable (i : Int) : Bool :=
  -Int.ofNat (Nat.pow 2 127) ≤ i && i < Int.ofNat (Nat.pow 2 128)

def exponent? : List Char → Option Int
  | [] => none
  | e :: cs =>
    if e = 'e' ∨ e = 'E' then
      let (negative, digits) := signed cs
      (natural? 10 digits).map fun n => if negative then -Int.ofNat n else Int.ofNat n
    else none

/-- A number without its sign: a whole number times a power of ten. -/
structure Decimal where
  digits : List Nat
  exponent : Int

namespace Decimal

def ofParts (whole fraction : List Char) (exponent : Int) : Decimal :=
  let decimals := fraction.filterMap digitValue?
  ⟨whole.filterMap digitValue? ++ decimals, exponent - Int.ofNat decimals.length⟩

/-- Halfway from the greatest double to the power of two after it. -/
def doubleLimit : Nat := Nat.pow 2 970 * (Nat.pow 2 54 - 1)

/-- Whether the number is less than the limit. The count of its digits settles that unless it
has as many before the point as the limit, which has 309. -/
def isStorable (d : Decimal) : Bool :=
  let digits := d.digits.dropWhile (· = 0)
  let places := Int.ofNat digits.length + d.exponent
  digits.isEmpty || places < 309 || places = 309 && match d.exponent with
    | .ofNat e => ofDigits 10 digits * Nat.pow 10 e < doubleLimit
    | .negSucc e => ofDigits 10 digits < doubleLimit * Nat.pow 10 (e + 1)

end Decimal

/-- A float with a point, a power of ten, or both; its sign has been taken. -/
def float? (cs : List Char) : Option Decimal :=
  let whole := cs.takeWhile isDigitPart
  if (decimal? whole).isNone then none
  else match cs.dropWhile isDigitPart with
    | '.' :: cs =>
      let fraction := cs.takeWhile isDigitPart
      let rest := cs.dropWhile isDigitPart
      if !isGrouped (isDigitIn 10) fraction then none
      else if rest.isEmpty then some (.ofParts whole fraction 0)
      else (exponent? rest).map (.ofParts whole fraction)
    | rest => (exponent? rest).map (.ofParts whole [])

def isFloat (cs : List Char) : Bool :=
  let digits := (signed cs).2
  if digits = ['i', 'n', 'f'] ∨ digits = ['n', 'a', 'n'] then true
  else match float? digits with
    | some d => d.isStorable
    | none => false

end ArmSession.Toml
