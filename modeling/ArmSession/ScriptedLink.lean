import ArmSession.Link

/-!
# Rehearsed links

A scripted link answers from two queues that are filled in advance, one per channel, and
keeps a log of what it is sent. An empty queue is a timeout. Once a disconnection has been
taken from either queue, both channels are closed. Sends may be given a budget, which both
channels share; past it they fail and leave no trace.
-/

namespace ArmSession

inductive ScriptedReply
  | message (m : Bytes)
  | timeout
  | disconnect
deriving DecidableEq

structure ScriptedLink where
  service : List ScriptedReply
  realtime : List ScriptedReply
  sent : List (Channel × Bytes)
  /-- How many sends may still succeed, if there is a limit. -/
  budget : Option Nat
  closed : Bool
  port : UInt16
deriving DecidableEq

namespace ScriptedLink

def fresh : ScriptedLink where
  service := []
  realtime := []
  sent := []
  budget := none
  closed := false
  port := 50000

def queue (l : ScriptedLink) : Channel → List ScriptedReply
  | .service => l.service
  | .realtime => l.realtime

def withQueue (l : ScriptedLink) (replies : List ScriptedReply) : Channel → ScriptedLink
  | .service => { l with service := replies }
  | .realtime => { l with realtime := replies }

def push (l : ScriptedLink) (c : Channel) (reply : ScriptedReply) : ScriptedLink :=
  l.withQueue (l.queue c ++ [reply]) c

def failSendsAfter (l : ScriptedLink) (count : Nat) : ScriptedLink :=
  { l with budget := some count }

def pending (l : ScriptedLink) (c : Channel) : Nat := (l.queue c).length

def messages (l : ScriptedLink) (c : Channel) : List Bytes :=
  l.sent.filterMap fun (d, m) => if d = c then some m else none

def count (l : ScriptedLink) (c : Channel) : Nat := l.sent.countP fun (d, _) => d = c

def nothingSent (l : ScriptedLink) : Bool := l.sent.isEmpty

def send (c : Channel) (m : Bytes) (l : ScriptedLink) : Except LinkError Unit × ScriptedLink :=
  if l.closed then (.error .closed, l)
  else match l.budget with
    | none => (.ok (), { l with sent := l.sent ++ [(c, m)] })
    | some 0 => (.error (.io "injected send failure"), l)
    | some (left + 1) => (.ok (), { l with sent := l.sent ++ [(c, m)], budget := some left })

def receive (c : Channel) (timeout : Duration) (l : ScriptedLink) :
    Except LinkError Bytes × ScriptedLink :=
  if l.closed then (.error .closed, l)
  else match l.queue c with
    | [] => (.error (.timeout timeout), l)
    | .message m :: rest => (.ok m, l.withQueue rest c)
    | .timeout :: rest => (.error (.timeout timeout), l.withQueue rest c)
    | .disconnect :: rest => (.error .closed, { l.withQueue rest c with closed := true })

instance : Link ScriptedLink where
  send := send
  receive := receive
  realtimePort := port

theorem count_eq_length_messages (l : ScriptedLink) (c : Channel) :
    l.count c = (l.messages c).length := by
  unfold count messages
  induction l.sent with
  | nil => rfl
  | cons entry rest ih => by_cases h : entry.1 = c <;> simp [h, ih]

end ScriptedLink

/-- Hands out rehearsed links in order and then refuses. It keeps the addresses that it was
asked for and the links that came back. -/
structure ScriptedConnector where
  links : List ScriptedLink
  addresses : List String
  released : List ScriptedLink
deriving DecidableEq

namespace ScriptedConnector

def ofLinks (links : List ScriptedLink) : ScriptedConnector := ⟨links, [], []⟩

def connect (address : String) (k : ScriptedConnector) :
    Except LinkError ScriptedLink × ScriptedConnector :=
  let asked := { k with addresses := k.addresses ++ [address] }
  match k.links with
  | [] => (.error (.io ("no scripted transport left for " ++ address)), asked)
  | link :: rest => (.ok link, { asked with links := rest })

def release (link : ScriptedLink) (k : ScriptedConnector) : ScriptedConnector :=
  { k with released := k.released ++ [link] }

instance : Connector ScriptedConnector ScriptedLink where
  connect := connect
  release := release

end ScriptedConnector

end ArmSession
