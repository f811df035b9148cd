import ArmSession.Net.Address
import ArmSession.Net.Io

/-!
# Datagrams

A datagram socket takes and delivers whole datagrams, each with the endpoint at its far end.
-/

namespace ArmSession.Net

structure Datagram where
  far : Endpoint
  payload : Bytes
deriving DecidableEq

inductive Incoming
  | datagram (d : Datagram)
  | failed (e : IoError)
deriving DecidableEq

structure DatagramSocket where
  near : Endpoint
  incoming : List (Arrival Incoming)
  /-- What the sends to come meet; past the end of the list they succeed. -/
  outcomes : List (Except IoError Unit)
  transmitted : List Datagram

/-- The most bytes that one datagram carries. -/
def maxDatagram : Nat := 65507

namespace DatagramSocket

def transmit (d : Datagram) (s : DatagramSocket) : Except IoError Unit × DatagramSocket :=
  match s.outcomes with
  | .error e :: rest => (.error e, { s with outcomes := rest })
  | .ok () :: rest => (.ok (), { s with outcomes := rest, transmitted := s.transmitted ++ [d] })
  | [] => (.ok (), { s with transmitted := s.transmitted ++ [d] })

end DatagramSocket

end ArmSession.Net
