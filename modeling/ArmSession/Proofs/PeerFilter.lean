import Mathlib.Data.List.Basic
import ArmSession.Proofs.LinkChanges
import ArmSession.Proofs.Traffic

/-!
# The peer of a realtime channel

The first datagram that a network link takes off its socket tells who the peer is, and from then on
the peer stays. What the receives return are the datagrams of the peer among those that were taken,
whatever came between them and however late the link looked at its clock.

The clock of a link moves in its reads alone. Here it may also move between them, at a pace that
says how many microseconds pass before each look at the clock, so that any readings are possible.
-/

namespace ArmSession.Net

/-- What a reader hears of a datagram, in a buffer of the largest size that there is. -/
def Datagram.heard (d : Datagram) : Bytes := d.payload.take maxDatagram

namespace NetworkLink

def later (micros : Nat) (l : NetworkLink) : NetworkLink := { l with now := l.now + micros }

/-- As `awaitPeer`, with `pace k` microseconds before look number `k` at the clock. -/
def awaitPeerAt (timeout : Duration) (deadline : Nat) (pace : Nat → Nat) (l : NetworkLink) :
    List (Arrival Incoming) → Except LinkError Bytes × NetworkLink
  | [] =>
    let l := l.later (pace 0)
    (.error (IoError.blocked.onRead timeout), l.waited (patience (l.remaining deadline)) [])
  | a :: rest =>
    let l := l.later (pace 0)
    let limit := patience (l.remaining deadline)
    if limit < a.wait then
      (.error (IoError.blocked.onRead timeout),
        l.waited limit ({ a with wait := a.wait - limit } :: rest))
    else
      let l := l.waited a.wait rest
      match a.event with
      | .failed e => (.error (e.onRead timeout), l)
      | .datagram d =>
        match l.peer with
        | none =>
          (.ok (d.payload.take maxDatagram),
            { l with peer := some d.far }.noting .debug ("Realtime peer learned: " ++ d.far.text))
        | some peer =>
          if peer = d.far then (.ok (d.payload.take maxDatagram), l)
          else
            let l := l.noting .trace ("Dropping datagram from unexpected source " ++ d.far.text)
            let l := l.later (pace 1)
            if deadline ≤ 1000 * l.now then (.error (.timeout timeout), l)
            else awaitPeerAt timeout deadline (fun k => pace (k + 2)) l rest

def receiveRealtimeAt (pace : Nat → Nat) (timeout : Duration) (l : NetworkLink) :
    Except LinkError Bytes × NetworkLink :=
  let l := l.later (pace 0)
  l.awaitPeerAt timeout (1000 * l.now + timeout.nanos) (fun k => pace (k + 1)) l.socket.incoming

variable {l l' l'' : NetworkLink}

theorem awaitPeerAt_zero (timeout : Duration) (deadline : Nat) (l : NetworkLink)
    (incoming : List (Arrival Incoming)) :
    l.awaitPeerAt timeout deadline (fun _ => 0) incoming =
      l.awaitPeer timeout deadline incoming := by
  induction incoming generalizing l with
  | nil => rfl
  | cons a rest ih =>
      unfold awaitPeerAt awaitPeer
      simp only [ih]
      rfl

theorem receiveRealtimeAt_zero (timeout : Duration) (l : NetworkLink) :
    l.receiveRealtimeAt (fun _ => 0) timeout = l.receiveRealtime timeout :=
  l.awaitPeerAt_zero timeout _ _

def datagrams (l : NetworkLink) : List Datagram :=
  l.socket.incoming.filterMap fun a =>
    match a.event with
    | .datagram d => some d
    | .failed _ => none

def fromPeer (l : NetworkLink) (ds : List Datagram) : List Datagram :=
  ds.filter fun d => l.peer = some d.far

/-- From one state of the link to another `taken` comes off its socket and `out` goes onto it. -/
structure Passage (l : NetworkLink) (taken out : List Datagram) (l' : NetworkLink) : Prop where
  incoming : l.datagrams = taken ++ l'.datagrams
  outgoing : l'.socket.transmitted = l.socket.transmitted ++ out
  /-- A peer that is not yet known is where the first datagram comes from. -/
  peer : l'.peer = l.peer.or (taken.head?.map Datagram.far)
  toPeer : ∀ d ∈ out, l'.peer = some d.far

namespace Passage

variable {taken taken' out out' : List Datagram} {peer : Endpoint}

theorem refl (l : NetworkLink) : Passage l [] [] l where
  incoming := rfl
  outgoing := (List.append_nil _).symm
  peer := (Option.or_none ..).symm
  toPeer _ hd := nomatch hd

theorem of_receive (hincoming : l.datagrams = taken ++ l'.datagrams)
    (houtgoing : l'.socket.transmitted = l.socket.transmitted)
    (hpeer : l'.peer = l.peer.or (taken.head?.map Datagram.far)) : Passage l taken [] l' where
  incoming := hincoming
  outgoing := houtgoing.trans (List.append_nil _).symm
  peer := hpeer
  toPeer _ hd := nomatch hd

/-- The peer never changes. -/
theorem kept (h : Passage l taken out l') (hpeer : l.peer = some peer) : l'.peer = some peer := by
  rw [h.peer, hpeer]
  rfl

theorem taken_eq_nil (h : Passage l taken out l') (hpeer : l'.peer = none) : taken = [] := by
  rw [h.peer, Option.or_eq_none_iff, Option.map_eq_none_iff] at hpeer
  exact List.head?_eq_none_iff.1 hpeer.2

theorem trans (h : Passage l taken out l') (h' : Passage l' taken' out' l'') :
    Passage l (taken ++ taken') (out ++ out') l'' where
  incoming := by rw [h.incoming, h'.incoming, List.append_assoc]
  outgoing := by rw [h'.outgoing, h.outgoing, List.append_assoc]
  peer := by
    rw [h'.peer, h.peer, Option.or_assoc, List.head?_append]
    cases taken.head? with
    | none => rfl
    | some d => rfl
  toPeer := List.forall_mem_append.2 ⟨fun d hd => h'.kept (h.toPeer d hd), h'.toPeer⟩

/-- What came from the peer is told in the same way later on. -/
theorem fromPeer_taken (h : Passage l taken out l') (h' : Passage l' taken' out' l'') :
    l''.fromPeer taken = l'.fromPeer taken := by
  cases hpeer : l'.peer with
  | none => rw [h.taken_eq_nil hpeer]; rfl
  | some peer => rw [fromPeer, fromPeer, hpeer, h'.kept hpeer]

theorem fromPeer_append (h : Passage l taken out l') (h' : Passage l' taken' out' l'') :
    l''.fromPeer (taken ++ taken') = l'.fromPeer taken ++ l''.fromPeer taken' := by
  rw [fromPeer, List.filter_append, ← fromPeer, ← fromPeer, h.fromPeer_taken h']

end Passage

/-- The answer of a receive tells what came from the peer of what it took. -/
def Tells (l : NetworkLink) (result : Except LinkError Bytes × NetworkLink) : Prop :=
  ∃ taken, Passage l taken [] result.2 ∧
    result.1.toOption.toList = (result.2.fromPeer taken).map Datagram.heard

namespace Tells

variable {result : Except LinkError Bytes × NetworkLink} {d : Datagram}

theorem of_error (e : LinkError) (hincoming : l.datagrams = l'.datagrams)
    (houtgoing : l'.socket.transmitted = l.socket.transmitted) (hpeer : l'.peer = l.peer) :
    Tells l (.error e, l') :=
  ⟨[], .of_receive hincoming houtgoing (hpeer.trans (Option.or_none ..).symm), rfl⟩

theorem of_ok (hincoming : l.datagrams = d :: l'.datagrams)
    (houtgoing : l'.socket.transmitted = l.socket.transmitted)
    (hpeer : l'.peer = l.peer.or (some d.far)) (hfar : l'.peer = some d.far) :
    Tells l (.ok d.heard, l') := by
  refine ⟨[d], .of_receive hincoming houtgoing hpeer, ?_⟩
  simp [fromPeer, hfar, Except.toOption]

/-- What a receive skips before it goes on does not come from the peer. -/
theorem behind {skipped : List Datagram} (h : Tells l' result) (hfirst : Passage l skipped [] l')
    (hnone : l'.fromPeer skipped = []) : Tells l result := by
  obtain ⟨taken, hpassage, htold⟩ := h
  refine ⟨skipped ++ taken, hfirst.trans hpassage, ?_⟩
  rw [hfirst.fromPeer_append hpassage, hnone, List.nil_append, htold]

theorem of_dropped {peer : Endpoint} (h : Tells l' result)
    (hincoming : l.datagrams = d :: l'.datagrams)
    (houtgoing : l'.socket.transmitted = l.socket.transmitted) (hpeer : l.peer = some peer)
    (hpeer' : l'.peer = some peer) (hfar : peer ≠ d.far) : Tells l result := by
  have hfirst : Passage l [d] [] l' := .of_receive hincoming houtgoing (by rw [hpeer', hpeer]; rfl)
  have hnone : l'.fromPeer [d] = [] := by simp [fromPeer, hpeer', hfar]
  exact h.behind hfirst hnone

end Tells

theorem awaitPeerAt_tells (timeout : Duration) (deadline : Nat) (pace : Nat → Nat)
    (l : NetworkLink) (incoming : List (Arrival Incoming))
    (hincoming : l.socket.incoming = incoming) :
    Tells l (l.awaitPeerAt timeout deadline pace incoming) := by
  induction incoming generalizing l pace with
  | nil => exact .of_error _ (by rw [datagrams, hincoming]; rfl) rfl rfl
  | cons a rest ih =>
      unfold awaitPeerAt
      dsimp only
      split
      · exact .of_error _ (by rw [datagrams, hincoming]; rfl) rfl rfl
      · split
        · next e hevent =>
            exact .of_error _ (by simp [datagrams, hincoming, hevent, waited]) rfl rfl
        · next d hevent =>
            have htaken : l.datagrams = d :: ((l.later (pace 0)).waited a.wait rest).datagrams := by
              simp [datagrams, hincoming, hevent, waited]
            split
            · next hpeer =>
                exact .of_ok htaken rfl (by rw [show l.peer = none from hpeer]; rfl) rfl
            · next peer hpeer =>
                split
                · next hfar =>
                    have hknown : l.peer = some d.far := hpeer.trans (congrArg some hfar)
                    exact .of_ok htaken rfl (by rw [hknown]; exact hknown) hknown
                · next hfar =>
                    -- Only a stranger's datagram lets the receive go on, unless time is up.
                    split
                    · exact (Tells.of_error _ rfl rfl rfl).of_dropped htaken rfl hpeer hpeer hfar
                    · exact (ih _ _ rfl).of_dropped htaken rfl hpeer hpeer hfar

theorem receiveRealtimeAt_tells (pace : Nat → Nat) (timeout : Duration) (l : NetworkLink) :
    Tells l (l.receiveRealtimeAt pace timeout) := by
  have hfirst : Passage l [] [] (l.later (pace 0)) := .of_receive rfl rfl (Option.or_none ..).symm
  exact (awaitPeerAt_tells timeout _ _ (l.later (pace 0)) l.socket.incoming rfl).behind hfirst rfl

/-- A send that goes through puts its message onto the socket, for the peer. -/
theorem sendRealtime_passage (l : NetworkLink) (m : Bytes) : ∃ out,
    Passage l [] out (l.sendRealtime m).2 ∧
      out.map Datagram.payload = ((l.sendRealtime m).1.toOption.map fun _ => m).toList := by
  unfold sendRealtime
  split
  · exact ⟨[], .refl l, rfl⟩
  · next peer hpeer =>
      split
      · exact ⟨[], .refl l, rfl⟩
      · unfold DatagramSocket.transmit
        have hknown : l.peer.or none = l.peer := Option.or_none ..
        have htoPeer : ∀ d ∈ [Datagram.mk peer m], l.peer = some d.far := by simpa using hpeer
        cases l.socket.outcomes with
        | nil => exact ⟨[⟨peer, m⟩], ⟨rfl, rfl, hknown.symm, htoPeer⟩, rfl⟩
        | cons outcome rest =>
            cases outcome with
            | error e => exact ⟨[], .of_receive rfl rfl hknown.symm, rfl⟩
            | ok _ => exact ⟨[⟨peer, m⟩], ⟨rfl, rfl, hknown.symm, htoPeer⟩, rfl⟩

/-- Realtime receives may take their time, and all other calls are made as ever. -/
def PacedStep (s : CallStep NetworkLink) : Prop :=
  match s.call with
  | .receive .realtime timeout answer =>
    ∃ pace, s.before.receiveRealtimeAt pace timeout = (answer, s.after)
  | _ => s.Made

inductive PacedTraffic : NetworkLink → List (CallStep NetworkLink) → NetworkLink → Prop
  | none (l : NetworkLink) : PacedTraffic l [] l
  | more {s : CallStep NetworkLink} {steps : List (CallStep NetworkLink)} {l' : NetworkLink}
    (made : PacedStep s) (rest : PacedTraffic s.after steps l') :
    PacedTraffic s.before (s :: steps) l'

namespace PacedTraffic

variable {steps : List (CallStep NetworkLink)}

theorem of_send {m : Bytes} {answer : Except LinkError Unit}
    (h : l.sendRealtime m = (answer, l')) (rest : PacedTraffic l' steps l'') :
    PacedTraffic l (⟨l, .send .realtime m answer, l'⟩ :: steps) l'' :=
  .more (s := ⟨l, .send .realtime m answer, l'⟩) h rest

theorem of_receive {pace : Nat → Nat} {timeout : Duration} {answer : Except LinkError Bytes}
    (h : l.receiveRealtimeAt pace timeout = (answer, l')) (rest : PacedTraffic l' steps l'') :
    PacedTraffic l (⟨l, .receive .realtime timeout answer, l'⟩ :: steps) l'' :=
  .more (s := ⟨l, .receive .realtime timeout answer, l'⟩) ⟨pace, h⟩ rest

end PacedTraffic

/-- Ordinary traffic takes no time between its reads. -/
theorem pacedTraffic_of_traffic {steps : List (CallStep NetworkLink)} (h : Traffic l steps l') :
    PacedTraffic l steps l' := by
  induction h with
  | none => exact .none _
  | @more s steps l' made _ ih =>
      refine .more ?_ ih
      obtain ⟨before, call, after⟩ := s
      cases call with
      | send c m answer => exact made
      | receive c timeout answer =>
          cases c with
          | service => exact made
          | realtime => exact ⟨_, (receiveRealtimeAt_zero timeout before).trans made⟩

theorem pacedStep_passage {s : CallStep NetworkLink} (h : PacedStep s) : ∃ taken out,
    Passage s.before taken out s.after ∧
      (s.call.received? .realtime).toList = (s.after.fromPeer taken).map Datagram.heard ∧
      (s.call.sent? .realtime).toList = out.map Datagram.payload := by
  obtain ⟨before, call, after⟩ := s
  cases call with
  | send c m answer =>
      cases c with
      | service =>
          obtain ⟨outcomes, written, hafter⟩ := before.sendService_changes m
          have hmade : before.sendService m = (answer, after) := h
          rw [hmade] at hafter
          subst hafter
          refine ⟨[], [], .of_receive rfl rfl (Option.or_none ..).symm, rfl, ?_⟩
          cases answer <;> rfl
      | realtime =>
          obtain ⟨out, hpassage, hout⟩ := before.sendRealtime_passage m
          have hmade : before.sendRealtime m = (answer, after) := h
          rw [hmade] at hpassage hout
          refine ⟨[], out, hpassage, rfl, ?_⟩
          rw [hout]
          cases answer <;> rfl
  | receive c timeout answer =>
      cases c with
      | service =>
          obtain ⟨inflow, outOfStep, now, log, hafter⟩ := before.receiveService_changes timeout
          have hmade : before.receiveService timeout = (answer, after) := h
          rw [hmade] at hafter
          subst hafter
          refine ⟨[], [], .of_receive rfl rfl (Option.or_none ..).symm, ?_, rfl⟩
          cases answer <;> rfl
      | realtime =>
          obtain ⟨pace, hmade⟩ := h
          obtain ⟨taken, hpassage, htold⟩ := before.receiveRealtimeAt_tells pace timeout
          rw [hmade] at hpassage htold
          refine ⟨taken, [], hpassage, ?_, rfl⟩
          rw [← htold]
          cases answer <;> rfl

theorem pacedTraffic_passage {steps : List (CallStep NetworkLink)}
    (h : PacedTraffic l steps l') : ∃ taken out, Passage l taken out l' ∧
      receivedOn .realtime steps = (l'.fromPeer taken).map Datagram.heard ∧
      sentOn .realtime steps = out.map Datagram.payload := by
  induction h with
  | none l => exact ⟨[], [], .refl l, rfl, rfl⟩
  | more made _ ih =>
      obtain ⟨taken, out, hstep, hheard, hsent⟩ := pacedStep_passage made
      obtain ⟨taken', out', hrest, hheard', hsent'⟩ := ih
      refine ⟨taken ++ taken', out ++ out', hstep.trans hrest, ?_, ?_⟩
      · rw [receivedOn_cons, hheard, hheard', hstep.fromPeer_append hrest, List.map_append]
      · rw [sentOn_cons, hsent, hsent', List.map_append]

theorem passage_of_mem {steps : List (CallStep NetworkLink)} (h : PacedTraffic l steps l')
    {s : CallStep NetworkLink} (hs : s ∈ steps) :
    (∃ taken out, Passage l taken out s.before) ∧ ∃ taken out, Passage s.before taken out l' := by
  induction h with
  | none => cases hs
  | more made rest ih =>
      cases hs with
      | head =>
          obtain ⟨taken, out, hpassage, -⟩ := pacedTraffic_passage (.more made rest)
          exact ⟨⟨[], [], .refl _⟩, taken, out, hpassage⟩
      | tail _ hs =>
          obtain ⟨⟨taken, out, hbefore⟩, hrest⟩ := ih hs
          obtain ⟨_, _, hfirst, -⟩ := pacedStep_passage made
          exact ⟨⟨_, _, hfirst.trans hbefore⟩, hrest⟩

theorem pacedStep_of_mem {steps : List (CallStep NetworkLink)} (h : PacedTraffic l steps l')
    {s : CallStep NetworkLink} (hs : s ∈ steps) : PacedStep s := by
  induction h with
  | none => cases hs
  | more made rest ih =>
      cases hs with
      | head => exact made
      | tail _ hs => exact ih hs

/-- What the calls received and sent on the realtime channel, `taken` being what came off the socket
and `out` what went onto it. -/
structure ServesPeer (l : NetworkLink) (steps : List (CallStep NetworkLink)) (l' : NetworkLink)
    (taken out : List Datagram) : Prop extends Passage l taken out l' where
  received : receivedOn .realtime steps =
    (taken.filter fun d => l'.peer = some d.far).map Datagram.payload
  sent : sentOn .realtime steps = out.map Datagram.payload
  /-- So it is for the part of the calls up to any one of them. -/
  before : ∀ s ∈ steps, ∃ taken out, Passage l taken out s.before
  kept : ∀ s ∈ steps, ∀ peer, s.before.peer = some peer → l'.peer = some peer
  /-- As long as no datagram has come nothing is sent. -/
  unheard : ∀ s ∈ steps, s.before.peer = none → ∀ m answer, s.call = .send .realtime m answer →
    answer = .error .noPeer ∧ s.after = s.before

theorem ServesPeer.of_passage {steps : List (CallStep NetworkLink)} {taken out : List Datagram}
    (h : PacedTraffic l steps l')
    (hwhole : ∀ d ∈ l.datagrams, d.payload.length ≤ maxDatagram) (hpassage : Passage l taken out l')
    (hreceived : receivedOn .realtime steps = (l'.fromPeer taken).map Datagram.heard)
    (hsent : sentOn .realtime steps = out.map Datagram.payload) :
    ServesPeer l steps l' taken out := by
  refine ⟨hpassage, ?_, hsent, fun s hs => (passage_of_mem h hs).1, ?_, ?_⟩
  · rw [hreceived]
    refine List.map_congr_left fun d hd => List.take_of_length_le (hwhole d ?_)
    rw [hpassage.incoming]
    exact List.mem_append_left _ (List.mem_filter.1 hd).1
  · intro s hs peer hpeer
    obtain ⟨_, _, _, hrest⟩ := passage_of_mem h hs
    exact hrest.kept hpeer
  · intro s hs hpeer m answer hcall
    have hmade := pacedStep_of_mem h hs
    obtain ⟨before, call, after⟩ := s
    obtain rfl : call = _ := hcall
    have hsend : before.sendRealtime m = (answer, after) := hmade
    cases (sendRealtime_of_no_peer before hpeer m).symm.trans hsend
    exact ⟨rfl, rfl⟩

/-- Whatever datagrams come from wherever, between whatever calls and whenever the clock is looked
at, the source of the first is the peer for good, and the realtime channel is between the link and
this peer alone. -/
theorem realtime_serves_peer {steps : List (CallStep NetworkLink)} (h : PacedTraffic l steps l')
    (hwhole : ∀ d ∈ l.datagrams, d.payload.length ≤ maxDatagram) :
    ∃ taken out, ServesPeer l steps l' taken out := by
  obtain ⟨taken, out, hpassage, hreceived, hsent⟩ := pacedTraffic_passage h
  exact ⟨taken, out, .of_passage h hwhole hpassage hreceived hsent⟩

def listening (incoming : List (Arrival Incoming)) : NetworkLink where
  stream := ⟨[], [], []⟩
  socket := ⟨⟨.v4 127 0 0 1, 0, 0⟩, incoming, [], []⟩
  peer := none
  outOfStep := false
  now := 0
  log := []

/-- A stranger's datagram comes just at the deadline, and another one before the peer's next. -/
theorem realtime_serves_peer_of_stranger :
    let arm : Endpoint := ⟨.v4 192 168 0 1, 0, 4000⟩
    let stranger : Endpoint := ⟨.v4 192 168 0 2, 0, 4000⟩
    let timeout : Duration := .ofMillis 1
    let pace : Nat → Nat := fun _ => 100
    let first := listening [⟨10, .datagram ⟨arm, [1, 2]⟩⟩, ⟨900, .datagram ⟨stranger, [9]⟩⟩,
      ⟨0, .failed ⟨.interrupted, ""⟩⟩, ⟨0, .datagram ⟨stranger, [9]⟩⟩, ⟨5, .datagram ⟨arm, []⟩⟩,
      ⟨0, .datagram ⟨arm, [3]⟩⟩]
    let after (l : NetworkLink) := (l.receiveRealtimeAt pace timeout).2
    let second := after first
    let third := after second
    let fourth := (third.sendRealtime [7]).2
    let fifth := after fourth
    let last := after fifth
    let steps : List (CallStep NetworkLink) :=
      [⟨first, .send .realtime [5] (.error .noPeer), first⟩,
        ⟨first, .receive .realtime timeout (.ok [1, 2]), second⟩,
        ⟨second, .receive .realtime timeout (.error (.timeout timeout)), third⟩,
        ⟨third, .send .realtime [7] (.ok ()), fourth⟩,
        ⟨fourth, .receive .realtime timeout (.error (.io "")), fifth⟩,
        ⟨fifth, .receive .realtime timeout (.ok []), last⟩]
    PacedTraffic first steps last ∧ (∀ d ∈ first.datagrams, d.payload.length ≤ maxDatagram) ∧
      last.datagrams = [⟨arm, [3]⟩] ∧ last.peer = some arm ∧
      ∃ taken out, ServesPeer first steps last taken out := by
  intro arm stranger timeout pace first after second third fourth fifth last steps
  have hlearned : (first.receiveRealtimeAt pace timeout).1 = .ok [1, 2] := by decide
  have hlate : (second.receiveRealtimeAt pace timeout).1 = .error (.timeout timeout) := by decide
  have hsent : (third.sendRealtime [7]).1 = .ok () := by decide
  have hfailed : (fourth.receiveRealtimeAt pace timeout).1 = .error (.io "") := by decide
  have hempty : (fifth.receiveRealtimeAt pace timeout).1 = .ok [] := by decide
  have hpaced : PacedTraffic first steps last :=
    .of_send (sendRealtime_of_no_peer first rfl [5]) <| .of_receive (Prod.ext hlearned rfl) <|
      .of_receive (Prod.ext hlate rfl) <| .of_send (Prod.ext hsent rfl) <|
        .of_receive (Prod.ext hfailed rfl) <| .of_receive (Prod.ext hempty rfl) (.none last)
  have hwhole : ∀ d ∈ first.datagrams, d.payload.length ≤ maxDatagram := by decide
  exact ⟨hpaced, hwhole, by decide, by decide, realtime_serves_peer hpaced hwhole⟩

/-- So it is for the calls of a link whose clock moves in its reads alone. -/
theorem traffic_serves_peer {steps : List (CallStep NetworkLink)} (h : Traffic l steps l')
    (hwhole : ∀ d ∈ l.datagrams, d.payload.length ≤ maxDatagram) :
    ∃ taken out, ServesPeer l steps l' taken out := by
  have hpaced := pacedTraffic_of_traffic h
  obtain ⟨taken, out, hpassage, hreceived, hsent⟩ := pacedTraffic_passage hpaced
  exact ⟨taken, out, .of_passage hpaced hwhole hpassage hreceived hsent⟩

end NetworkLink

end ArmSession.Net
