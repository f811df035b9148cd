import ArmSession.Link
import ArmSession.Net.Address

/-!
# From an address to endpoints

An address is a literal, a name, or either with a port after the last colon. Names are left to
the host; what is refused here never reaches it.
-/

namespace ArmSession.Net

/-- White space as Unicode has it. -/
def isWhite (c : Char) : Bool :=
  let n := c.toNat
  (9 ≤ n && n ≤ 13) || n = 0x20 || n = 0x85 || n = 0xa0 || n = 0x1680 ||
    (0x2000 ≤ n && n ≤ 0x200a) || n = 0x2028 || n = 0x2029 || n = 0x202f || n = 0x205f ||
    n = 0x3000

def portOfText? (cs : List Char) : Option UInt16 :=
  (whole? (number? 10 65536 (fun _ => true) ((after? '+' cs).getD cs))).map UInt16.ofNat

def splitAtLastColon? (cs : List Char) : Option (List Char × List Char) :=
  let back := (cs.reverse.takeWhile (· ≠ ':')).reverse
  if back.length < cs.length then some (cs.take (cs.length - back.length - 1), back) else none

abbrev LookUp := String → UInt16 → Except String (List Endpoint)

def lookUpName (lookUp : LookUp) (name : String) (port : UInt16) :
    Except String (List Endpoint) :=
  if name.contains '\x00' then .error "file name contained an unexpected NUL byte"
  else lookUp name port

/-- The endpoints of a text that names its port itself. -/
def lookUpWithPort (lookUp : LookUp) (text : String) : Except String (List Endpoint) :=
  match Endpoint.ofText? text with
  | some e => .ok [e]
  | none =>
    match splitAtLastColon? text.toList with
    | none => .error "invalid socket address"
    | some (name, port) =>
      match portOfText? port with
      | none => .error "invalid port value"
      | some port => lookUpName lookUp (String.ofList name) port

/-- The endpoints to try for an address, of which there is at least one. -/
def resolve (lookUp : LookUp) (servicePort : UInt16) (address : String) :
    Except LinkError (List Endpoint) :=
  if address.toList.all isWhite then .error (.invalidAddress address)
  else
    let found : Except String (List Endpoint) := match Ip.ofText? address with
      | some ip => .ok [⟨ip, 0, servicePort⟩]
      | none =>
        if address.contains ':' then lookUpWithPort lookUp address
        else lookUpName lookUp address servicePort
    match found with
    | .error reason => .error (.invalidAddress (address ++ ": " ++ reason))
    | .ok [] => .error (.invalidAddress address)
    | .ok (e :: rest) => .ok (e :: rest)

end ArmSession.Net
