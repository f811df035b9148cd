import ArmSession.Digits

/-!
# Network addresses

An address is four octets or eight groups of sixteen bits, and an endpoint is an address with
a port. Both are read from literals: octets are decimal without spare zeros, groups are
hexadecimal, `::` stands for one or more zero groups, and the last two groups may be written
as four octets.
-/

namespace ArmSession.Net

inductive Ip
  | v4 (a b c d : UInt8)
  | v6 (a b c d e f g h : UInt16)
deriving DecidableEq

structure Endpoint where
  ip : Ip
  /-- Which interface a local address belongs to; zero where there is nothing to choose. -/
  scope : UInt32
  port : UInt16
deriving DecidableEq

def after? (c : Char) : List Char → Option (List Char)
  | [] => none
  | d :: cs => if d = c then some cs else none

/-- A number below `limit` that `fits` accepts the digits of. -/
def number? (base limit : Nat) (fits : List Nat → Bool) (cs : List Char) :
    Option (Nat × List Char) :=
  let (digits, rest) := spanDigits base cs
  let n := ofDigits base digits
  if digits ≠ [] ∧ fits digits ∧ n < limit then some (n, rest) else none

def octet? (cs : List Char) : Option (UInt8 × List Char) :=
  (number? 10 256 (fun ds => ds.length ≤ 3 && (ds.head? ≠ some 0 || ds.length = 1)) cs).map
    fun (n, rest) => (UInt8.ofNat n, rest)

def group? (cs : List Char) : Option (UInt16 × List Char) :=
  (number? 16 65536 (fun ds => ds.length ≤ 4) cs).map fun (n, rest) => (UInt16.ofNat n, rest)

def octets? (cs : List Char) : Option ((UInt8 × UInt8 × UInt8 × UInt8) × List Char) := do
  let (a, cs) ← octet? cs
  let (b, cs) ← octet? (← after? '.' cs)
  let (c, cs) ← octet? (← after? '.' cs)
  let (d, cs) ← octet? (← after? '.' cs)
  some ((a, b, c, d), cs)

def joinOctets (high low : UInt8) : UInt16 := UInt16.ofNat (256 * high.toNat + low.toNat)

/-- Groups that were read. When they end in octets, no `::` may follow. -/
structure Groups where
  values : List UInt16
  endsInOctets : Bool
  rest : List Char

/-- Up to `limit` groups with colons between them; a colon is in front unless they are first. -/
def readGroups : (limit : Nat) → (first : Bool) → List Char → Groups
  | 0, _, cs => ⟨[], false, cs⟩
  | limit + 1, first, cs =>
    match if first then some cs else after? ':' cs with
    | none => ⟨[], false, cs⟩
    | some inner =>
      match if 0 < limit then octets? inner else none with
      | some ((a, b, c, d), rest) => ⟨[joinOctets a b, joinOctets c d], true, rest⟩
      | none =>
        match group? inner with
        | none => ⟨[], false, cs⟩
        | some (g, rest) =>
          let more := readGroups limit false rest
          ⟨g :: more.values, more.endsInOctets, more.rest⟩

def Ip.ofGroups? : List UInt16 → Option Ip
  | [a, b, c, d, e, f, g, h] => some (.v6 a b c d e f g h)
  | _ => none

def v4? (cs : List Char) : Option (Ip × List Char) :=
  (octets? cs).map fun ((a, b, c, d), rest) => (.v4 a b c d, rest)

def v6? (cs : List Char) : Option (Ip × List Char) := do
  let head := readGroups 8 true cs
  if head.values.length = 8 then
    some (← Ip.ofGroups? head.values, head.rest)
  else if head.endsInOctets then none
  else
    let tail := readGroups (7 - head.values.length) true (← after? ':' (← after? ':' head.rest))
    let zeros := List.replicate (8 - head.values.length - tail.values.length) 0
    some (← Ip.ofGroups? (head.values ++ zeros ++ tail.values), tail.rest)

def ip? (cs : List Char) : Option (Ip × List Char) :=
  match v4? cs with
  | some found => some found
  | none => v6? cs

def port? (cs : List Char) : Option (UInt16 × List Char) := do
  let (n, rest) ← number? 10 65536 (fun _ => true) (← after? ':' cs)
  some (UInt16.ofNat n, rest)

def scope (cs : List Char) : UInt32 × List Char :=
  match (after? '%' cs).bind (number? 10 4294967296 fun _ => true) with
  | some (n, rest) => (UInt32.ofNat n, rest)
  | none => (0, cs)

def endpoint? (cs : List Char) : Option (Endpoint × List Char) :=
  match v4? cs with
  | some (ip, rest) => (port? rest).map fun (port, rest) => (⟨ip, 0, port⟩, rest)
  | none => do
    let (ip, rest) ← v6? (← after? '[' cs)
    let (number, rest) := scope rest
    let (port, rest) ← port? (← after? ']' rest)
    some (⟨ip, number, port⟩, rest)

def whole? {α : Type} : Option (α × List Char) → Option α
  | some (a, []) => some a
  | _ => none

def Ip.ofText? (text : String) : Option Ip := whole? (ip? text.toList)

def Endpoint.ofText? (text : String) : Option Endpoint := whole? (endpoint? text.toList)

def hexText (g : UInt16) : String := String.ofList (Nat.toDigits 16 g.toNat)

def groupsText (gs : List UInt16) : String := ":".intercalate (gs.map hexText)

/-- Where the first of the longest runs of zero groups starts, and its length. -/
def longestZeros (gs : List UInt16) : Nat × Nat :=
  (List.range gs.length).foldl (fun (best : Nat × Nat) start =>
    let length := ((gs.drop start).takeWhile (· = 0)).length
    if best.2 < length then (start, length) else best) (0, 0)

def octetsText (a b c d : UInt8) : String := s!"{a}.{b}.{c}.{d}"

def Ip.text : Ip → String
  | .v4 a b c d => octetsText a b c d
  | .v6 0 0 0 0 0 0xffff g h =>
    "::ffff:" ++ octetsText (UInt8.ofNat (g.toNat / 256)) (UInt8.ofNat g.toNat)
      (UInt8.ofNat (h.toNat / 256)) (UInt8.ofNat h.toNat)
  | .v6 a b c d e f g h =>
    let gs := [a, b, c, d, e, f, g, h]
    let (start, length) := longestZeros gs
    if 1 < length then groupsText (gs.take start) ++ "::" ++ groupsText (gs.drop (start + length))
    else groupsText gs

def Endpoint.text (e : Endpoint) : String :=
  match e.ip with
  | .v4 _ _ _ _ => s!"{e.ip.text}:{e.port}"
  | .v6 _ _ _ _ _ _ _ _ =>
    if e.scope = 0 then s!"[{e.ip.text}]:{e.port}" else s!"[{e.ip.text}%{e.scope}]:{e.port}"

end ArmSession.Net
