import ArmSession.Config
import ArmSession.Net.NetworkLink
import ArmSession.Net.Resolve

/-!
# Connecting over the network

A host looks names up, dials endpoints and gives ports to datagram sockets. A port that was
asked for is given to one socket of an address at a time. What each dial meets, and what then
happens on the connection, is laid out in advance.
-/

namespace ArmSession.Net

structure Connection where
  near : Endpoint
  /-- The port for datagrams that the host gives when the choice is left to it. -/
  freePort : UInt16
  inflow : List (Arrival Inflow)
  writes : List WriteOutcome
  incoming : List (Arrival Incoming)
  transmissions : List (Except IoError Unit)

structure Host where
  lookUp : LookUp
  /-- What the dials to come meet; past the end of the list there is no route. -/
  dials : List (Except IoError Connection)
  /-- The ports that datagram sockets hold. -/
  bound : List (Ip × UInt16)

namespace Host

def isolated : Host where
  lookUp _ _ :=
    .error "failed to lookup address information: Temporary failure in name resolution"
  dials := []
  bound := []

def dial (timeout : Duration) (h : Host) : Except IoError Connection × Host :=
  if timeout.nanos = 0 then (.error .noTimeToConnect, h)
  else match h.dials with
    | [] => (.error .unreachable, h)
    | outcome :: rest => (outcome, { h with dials := rest })

/-- Gives a port to a datagram socket: the one that is wanted, unless that is zero. -/
def bind (ip : Ip) (wanted freePort : UInt16) (h : Host) : Except IoError UInt16 × Host :=
  if wanted = 0 then (.ok freePort, { h with bound := (ip, freePort) :: h.bound })
  else if (ip, wanted) ∈ h.bound then (.error .addressInUse, h)
  else (.ok wanted, { h with bound := (ip, wanted) :: h.bound })

def unbind (ip : Ip) (port : UInt16) (h : Host) : Host :=
  { h with bound := h.bound.erase (ip, port) }

/-- A port that is held cannot be had. -/
theorem bind_of_mem (ip : Ip) (wanted freePort : UInt16) (h : Host) (hw : wanted ≠ 0)
    (hb : (ip, wanted) ∈ h.bound) : h.bind ip wanted freePort = (.error .addressInUse, h) := by
  simp [bind, hw, hb]

end Host

structure NetworkConnector where
  options : ConnectOptions
  host : Host
  log : List Log.Line

namespace NetworkConnector

def noting (text : String) (k : NetworkConnector) : NetworkConnector :=
  { k with log := k.log ++ [⟨.debug, text⟩] }

/-- Opens the realtime channel next to a connection, on the same local address. -/
def openLink (far : Endpoint) (c : Connection) (k : NetworkConnector) :
    Except LinkError NetworkLink × NetworkConnector :=
  match k.host.bind c.near.ip k.options.realtimePort c.freePort with
  | (.error e, host) => (.error (.io e.text), { k with host })
  | (.ok port, host) =>
    let link : NetworkLink := {
      stream := ⟨c.inflow, c.writes, []⟩
      socket := ⟨⟨c.near.ip, 0, port⟩, c.incoming, c.transmissions, []⟩
      peer := none
      outOfStep := false
      now := 0
      log := [] }
    (.ok link, { k with host }.noting
      s!"Transport open: service {c.near.text} -> {far.text}, realtime port {port}")

/-- Tries endpoints in order. The first that accepts is taken, and if none does the last error
stays. -/
def tryEach (last : LinkError) :
    List Endpoint → NetworkConnector → Except LinkError NetworkLink × NetworkConnector
  | [], k => (.error last, k)
  | far :: rest, k =>
    let k := k.noting ("Connecting to controller at " ++ far.text)
    let (outcome, host) := k.host.dial k.options.connectTimeout
    let k := { k with host }
    match outcome with
    | .ok c => k.openLink far c
    | .error e => tryEach (.io e.text) rest k

def connect (address : String) (k : NetworkConnector) :
    Except LinkError NetworkLink × NetworkConnector :=
  match resolve k.host.lookUp k.options.servicePort address with
  | .error e => (.error e, k)
  | .ok endpoints => k.tryEach (.invalidAddress address) endpoints

def release (l : NetworkLink) (k : NetworkConnector) : NetworkConnector :=
  { k with host := k.host.unbind l.socket.near.ip l.socket.near.port }

instance : Connector NetworkConnector NetworkLink where
  connect := connect
  release := release

end NetworkConnector

end ArmSession.Net
