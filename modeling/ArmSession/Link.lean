import ArmSession.Duration
import ArmSession.Wire.Bytes

/-!
# Links to a controller

A link carries whole messages both ways on two channels: the service channel for the
handshake, the realtime channel for states and commands. A connector opens links to an
address and takes back links that are no longer used.
-/

namespace ArmSession

inductive Channel
  | service
  | realtime
deriving DecidableEq

inductive LinkError
  | io (text : String)
  | timeout (waited : Duration)
  | closed
  | invalidAddress (text : String)
  | noPeer
  | messageTooLarge (size : Nat)
deriving DecidableEq

namespace LinkError

def message : LinkError → String
  | io text => "IO Error: " ++ text
  | timeout waited => "Receive timeout after " ++ waited.text
  | closed => "Connection closed by peer"
  | invalidAddress text => "Invalid address: " ++ text
  | noPeer => "Realtime peer unknown: no datagram received yet"
  | messageTooLarge size => s!"Message too large: {size} bytes"

/-- The link was there, but nothing came in time. -/
def isTimeout : LinkError → Bool
  | timeout _ => true
  | _ => false

end LinkError

/-- A link in state `σ`. Every call hands back the state that it leaves, also when it fails. -/
class Link (σ : Type) where
  send : Channel → Bytes → σ → Except LinkError Unit × σ
  receive : Channel → Duration → σ → Except LinkError Bytes × σ
  /-- The local port on which states are awaited. -/
  realtimePort : σ → UInt16

/-- A connector in state `κ`, for links in state `σ`. -/
class Connector (κ : Type) (σ : outParam Type) where
  connect : String → κ → Except LinkError σ × κ
  /-- A link that nobody uses any more goes back to the connector. -/
  release : σ → κ → κ

end ArmSession
