import ArmSession.Log
import ArmSession.Net.Datagrams
import ArmSession.Net.Stream

/-!
# Network links

The service channel is a byte stream on which a message is preceded by its length in four
bytes. A reader that loses its place inside a frame cannot find the next one, so from then on
the channel counts as closed. The realtime channel carries one message per datagram: the first
datagram tells who the peer is, and what comes from anywhere else is dropped.
-/

namespace ArmSession.Net

open Wire

structure NetworkLink where
  stream : Stream
  socket : DatagramSocket
  /-- Where states come from and commands go to, once a datagram has come. -/
  peer : Option Endpoint
  /-- The reader of the stream has lost its place. -/
  outOfStep : Bool
  /-- Microseconds on the clock, which only reads move. -/
  now : Nat
  log : List Log.Line

def maxServiceMessage : Nat := 65536

def lengthSize : Nat := 4

namespace NetworkLink

def noting (level : Log.Level) (text : String) (l : NetworkLink) : NetworkLink :=
  { l with log := l.log ++ [⟨level, text⟩] }

def write (bs : Bytes) (l : NetworkLink) : Except LinkError Unit × NetworkLink :=
  let (result, stream) := l.stream.write bs
  (result.mapError IoError.onStream, { l with stream })

/-- Sends a length and then the message, in two writes. -/
def sendService (m : Bytes) (l : NetworkLink) : Except LinkError Unit × NetworkLink :=
  if l.outOfStep then (.error .closed, l)
  else if maxServiceMessage < m.length then (.error (.messageTooLarge m.length), l)
  else
    match l.write (littleEndian lengthSize m.length) with
    | (.error e, l) => (.error e, l)
    | (.ok (), l) => l.write m

/-- Reads exactly `n` bytes. Running out of time is harmless only at the start of a frame. -/
def readExact (timeout : Duration) (inFrame : Bool) (n : Nat) (l : NetworkLink) :
    Except LinkError Bytes × NetworkLink :=
  let f := fill (patience timeout) n l.stream.inflow
  let l := { l with stream := { l.stream with inflow := f.inflow }, now := l.now + f.elapsed }
  match f.ending with
  | .full => (.ok f.bytes, l)
  | .endOfStream => (.error .closed, l)
  | .failed e =>
    let error := e.onRead timeout
    if error.isTimeout && (inFrame || !f.bytes.isEmpty) then
      (.error .closed, { l with outOfStep := true }.noting .warn
        s!"Service channel timed out mid-frame ({f.bytes.length} of {n} bytes), closing")
    else (.error error, l)

def receiveService (timeout : Duration) (l : NetworkLink) :
    Except LinkError Bytes × NetworkLink :=
  if l.outOfStep then (.error .closed, l)
  else
    match l.readExact timeout false lengthSize with
    | (.error e, l) => (.error e, l)
    | (.ok head, l) =>
      let size := ofLittleEndian head
      if maxServiceMessage < size then
        (.error (.messageTooLarge size), { l with outOfStep := true })
      else l.readExact timeout true size

def sendRealtime (m : Bytes) (l : NetworkLink) : Except LinkError Unit × NetworkLink :=
  match l.peer with
  | none => (.error .noPeer, l)
  | some peer =>
    if maxDatagram < m.length then (.error (.messageTooLarge m.length), l)
    else
      let (result, socket) := l.socket.transmit ⟨peer, m⟩
      (result.mapError fun e => .io e.text, { l with socket })

def remaining (deadline : Nat) (l : NetworkLink) : Duration := ⟨deadline - 1000 * l.now⟩

def waited (micros : Nat) (incoming : List (Arrival Incoming)) (l : NetworkLink) : NetworkLink :=
  { l with socket := { l.socket with incoming }, now := l.now + micros }

/-- Waits for a datagram of the peer until a deadline in nanoseconds, which is looked at again
after each datagram that is dropped. -/
def awaitPeer (timeout : Duration) (deadline : Nat) (l : NetworkLink) :
    List (Arrival Incoming) → Except LinkError Bytes × NetworkLink
  | [] =>
    (.error (IoError.blocked.onRead timeout), l.waited (patience (l.remaining deadline)) [])
  | a :: rest =>
    let limit := patience (l.remaining deadline)
    if limit < a.wait then
      (.error (IoError.blocked.onRead timeout),
        l.waited limit ({ a with wait := a.wait - limit } :: rest))
    else
      let l := l.waited a.wait rest
      match a.event with
      | .failed e => (.error (e.onRead timeout), l)
      | .datagram d =>
        match l.peer with
        | none =>
          (.ok (d.payload.take maxDatagram),
            { l with peer := some d.far }.noting .debug ("Realtime peer learned: " ++ d.far.text))
        | some peer =>
          if peer = d.far then (.ok (d.payload.take maxDatagram), l)
          else
            let l := l.noting .trace ("Dropping datagram from unexpected source " ++ d.far.text)
            if deadline ≤ 1000 * l.now then (.error (.timeout timeout), l)
            else awaitPeer timeout deadline l rest

def receiveRealtime (timeout : Duration) (l : NetworkLink) :
    Except LinkError Bytes × NetworkLink :=
  l.awaitPeer timeout (1000 * l.now + timeout.nanos) l.socket.incoming

def send : Channel → Bytes → NetworkLink → Except LinkError Unit × NetworkLink
  | .service => sendService
  | .realtime => sendRealtime

def receive : Channel → Duration → NetworkLink → Except LinkError Bytes × NetworkLink
  | .service => receiveService
  | .realtime => receiveRealtime

instance : Link NetworkLink where
  send := send
  receive := receive
  realtimePort l := l.socket.near.port

/-- A channel that has lost its place neither reads nor writes. -/
theorem service_of_outOfStep (l : NetworkLink) (h : l.outOfStep = true) (m : Bytes)
    (timeout : Duration) :
    l.sendService m = (.error .closed, l) ∧ l.receiveService timeout = (.error .closed, l) := by
  simp [sendService, receiveService, h]

theorem sendRealtime_of_no_peer (l : NetworkLink) (h : l.peer = none) (m : Bytes) :
    l.sendRealtime m = (.error .noPeer, l) := by
  simp [sendRealtime, h]

end NetworkLink

end ArmSession.Net
