import ArmSession.Proofs.CommandMessage
import ArmSession.Proofs.Course
import ArmSession.Proofs.PeerFilter
import ArmSession.Proofs.ServiceReading
import ArmSession.Proofs.StateMessage

/-!
# Reads that a signal cuts short

A signal cuts a read short, and nothing is read. On the service channel the read is made again, so
no receive comes out otherwise for it. On the realtime channel it is not: a receive that is still
waiting when a signal comes fails, and a control loop that waits for its next state ends.
-/

namespace ArmSession.Net

def Inflow.IsSignal : Inflow → Prop
  | failed e => e.kind = .interrupted
  | _ => False

def Incoming.IsSignal : Incoming → Prop
  | failed e => e.kind = .interrupted
  | _ => False

/-- Some more reads are cut short, each before it gives up after `limit`. -/
inductive Interrupts {α : Type} (limit : Nat) (IsSignal : α → Prop) :
    List (Arrival α) → List (Arrival α) → Prop
  | none : Interrupts limit IsSignal [] []
  | kept {arrivals cut : List (Arrival α)} (a : Arrival α)
      (rest : Interrupts limit IsSignal arrivals cut) :
      Interrupts limit IsSignal (a :: arrivals) (a :: cut)
  | signal {a : Arrival α} {arrivals cut : List (Arrival α)} (early : a.wait ≤ limit)
      (short : IsSignal a.event) (rest : Interrupts limit IsSignal arrivals cut) :
      Interrupts limit IsSignal arrivals (a :: cut)

section

variable {limit : Nat} {inflow cut : List (Arrival Inflow)}

theorem Inflow.IsSignal.exists_error {event : Inflow} (h : event.IsSignal) :
    ∃ e, event = .failed e ∧ e.kind = .interrupted := by
  cases event with
  | chunk => cases h
  | endOfStream => cases h
  | failed e => exact ⟨e, rfl, h⟩

/-- Signals leave no trace in a burst. -/
theorem Interrupts.burst_eq (h : Interrupts limit Inflow.IsSignal inflow cut) :
    burst limit cut = burst limit inflow := by
  induction h with
  | none => rfl
  | kept a rest ih => rw [burst, burst, ih]
  | @signal a _ cut early short rest ih =>
      obtain ⟨e, hevent, hkind⟩ := short.exists_error
      rw [← ih, burst, if_neg (Nat.not_lt.2 early), hevent]
      exact if_pos hkind

theorem Interrupts.pending_eq (h : Interrupts limit Inflow.IsSignal inflow cut) :
    pending cut = pending inflow := by
  induction h with
  | none => rfl
  | kept a rest ih => rw [pending_cons, pending_cons, ih]
  | signal early short rest ih =>
      obtain ⟨e, hevent, -⟩ := short.exists_error
      rw [pending_cons, hevent, ih]
      rfl

end

namespace NetworkLink

def onStream (inflow : List (Arrival Inflow)) (l : NetworkLink) : NetworkLink :=
  { l with stream := { l.stream with inflow } }

def onSocket (incoming : List (Arrival Incoming)) (l : NetworkLink) : NetworkLink :=
  { l with socket := { l.socket with incoming } }

theorem datagrams_signal {a : Arrival Incoming} (h : a.event.IsSignal)
    (left rest : List (Arrival Incoming)) (l : NetworkLink) :
    (l.onSocket (left ++ a :: rest)).datagrams = (l.onSocket (left ++ rest)).datagrams := by
  cases hevent : a.event with
  | datagram d =>
      rw [hevent] at h
      cases h
  | failed e => simp [datagrams, onSocket, hevent]

theorem datagrams_interrupted {limit : Nat} {incoming cut : List (Arrival Incoming)}
    (h : Interrupts limit Incoming.IsSignal incoming cut) (left : List (Arrival Incoming))
    (l : NetworkLink) :
    (l.onSocket (left ++ cut)).datagrams = (l.onSocket (left ++ incoming)).datagrams := by
  induction h generalizing left with
  | none => rfl
  | kept a rest ih => simpa using ih (left ++ [a])
  | signal early short rest ih => rw [datagrams_signal short, ih]

/-- Two receives with the same answer, which leave the same to be read and the same peer. -/
structure SameReceive (r r' : Except LinkError Bytes × NetworkLink) : Prop where
  answer : r'.1 = r.1
  peer : r'.2.peer = r.2.peer
  outOfStep : r'.2.outOfStep = r.2.outOfStep
  unread : r'.2.stream.unread = r.2.stream.unread
  datagrams : r'.2.datagrams = r.2.datagrams

variable {l l' : NetworkLink} {timeout : Duration}

theorem receiveService_interrupted {inflow : List (Arrival Inflow)}
    (h : Interrupts (patience timeout) Inflow.IsSignal l.stream.inflow inflow) :
    SameReceive (l.receiveService timeout) ((l.onStream inflow).receiveService timeout) := by
  cases hstep : l.outOfStep with
  | true =>
      have hcut : (l.onStream inflow).outOfStep = true := hstep
      rw [(service_of_outOfStep l hstep [] timeout).2, (service_of_outOfStep _ hcut [] timeout).2]
      exact ⟨rfl, rfl, rfl, h.pending_eq, rfl⟩
  | false =>
      have hcut : (l.onStream inflow).outOfStep = false := hstep
      have hburst : burst (patience timeout) (l.onStream inflow).stream.inflow =
          burst (patience timeout) l.stream.inflow := h.burst_eq
      obtain ⟨hanswer, hunread, hlost⟩ := @receiveService_eq l _ timeout rfl hstep
      obtain ⟨hanswer', hunread', hlost'⟩ := receiveService_eq hburst hcut
      obtain ⟨_, _, _, _, hafter⟩ := l.receiveService_changes timeout
      obtain ⟨_, _, _, _, hafter'⟩ := (l.onStream inflow).receiveService_changes timeout
      refine ⟨hanswer'.trans hanswer.symm, ?_, hlost'.trans hlost.symm, ?_, ?_⟩
      · rw [hafter, hafter']
        rfl
      · have hsame : (l.onStream inflow).stream.unread = l.stream.unread := h.pending_eq
        rw [hunread, hunread'] at hsame
        exact List.append_cancel_left hsame
      · rw [hafter, hafter']
        rfl

def dropping (a : Arrival Incoming) (d : Datagram) (l : NetworkLink) : NetworkLink :=
  { l with now := l.now + a.wait }.noting .trace
    ("Dropping datagram from unexpected source " ++ d.far.text)

def learning (d : Datagram) (l : NetworkLink) : NetworkLink :=
  { l with peer := some d.far }.noting .debug ("Realtime peer learned: " ++ d.far.text)

section

variable {deadline : Nat} {a : Arrival Incoming} {d : Datagram}

/-- What is left of a socket is not read before it is passed on. -/
theorem awaitPeer_onSocket (timeout : Duration) (deadline : Nat) (l : NetworkLink)
    (left incoming : List (Arrival Incoming)) :
    (l.onSocket left).awaitPeer timeout deadline incoming =
      l.awaitPeer timeout deadline incoming := by
  cases incoming <;> rfl

theorem awaitPeer_of_late (late : patience (l.remaining deadline) < a.wait)
    (rest : List (Arrival Incoming)) : l.awaitPeer timeout deadline (a :: rest) =
      (.error (IoError.blocked.onRead timeout), l.waited (patience (l.remaining deadline))
        ({ a with wait := a.wait - patience (l.remaining deadline) } :: rest)) := by
  rw [awaitPeer]
  exact if_pos late

theorem awaitPeer_of_failed {e : IoError} (early : a.wait ≤ patience (l.remaining deadline))
    (event : a.event = .failed e) (rest : List (Arrival Incoming)) :
    l.awaitPeer timeout deadline (a :: rest) =
      (.error (e.onRead timeout), l.waited a.wait rest) := by
  rw [awaitPeer]
  dsimp only
  rw [if_neg (Nat.not_lt.2 early), event]

/-- A datagram that comes in time is for this link, or dropped. -/
theorem awaitPeer_of_datagram (timeout : Duration)
    (early : a.wait ≤ patience (l.remaining deadline)) (event : a.event = .datagram d)
    (rest : List (Arrival Incoming)) :
    (l.peer = none → l.awaitPeer timeout deadline (a :: rest) =
      (.ok d.heard, (l.waited a.wait rest).learning d)) ∧
    (l.peer = some d.far → l.awaitPeer timeout deadline (a :: rest) =
      (.ok d.heard, l.waited a.wait rest)) ∧
    ∀ peer, l.peer = some peer → peer ≠ d.far → l.awaitPeer timeout deadline (a :: rest) =
      if deadline ≤ 1000 * (l.dropping a d).now then
        (.error (.timeout timeout), (l.dropping a d).onSocket rest)
      else (l.dropping a d).awaitPeer timeout deadline rest := by
  rw [awaitPeer]
  dsimp only
  rw [if_neg (Nat.not_lt.2 early), event]
  dsimp only
  rw [show (l.waited a.wait rest).peer = l.peer from rfl]
  refine ⟨fun unknown => ?_, fun known => ?_, fun peer known stranger => ?_⟩
  · rw [unknown]
    rfl
  · rw [known]
    exact if_pos rfl
  · rw [known, ← awaitPeer_onSocket timeout deadline (l.dropping a d) rest]
    exact if_neg stranger

end

inductive StillWaits (deadline : Nat) : NetworkLink → List (Arrival Incoming) → NetworkLink → Prop
  | nothing (l : NetworkLink) : StillWaits deadline l [] l
  | dropped {l l' : NetworkLink} {a : Arrival Incoming} {front : List (Arrival Incoming)}
      {d : Datagram} {peer : Endpoint} (early : a.wait ≤ patience (l.remaining deadline))
      (event : a.event = .datagram d) (known : l.peer = some peer) (stranger : peer ≠ d.far)
      (time : 1000 * (l.dropping a d).now < deadline)
      (rest : StillWaits deadline (l.dropping a d) front l') :
      StillWaits deadline l (a :: front) l'

namespace StillWaits

variable {deadline : Nat} {front : List (Arrival Incoming)}

theorem awaitPeer_append (h : StillWaits deadline l front l') (timeout : Duration)
    (behind : List (Arrival Incoming)) : l.awaitPeer timeout deadline (front ++ behind) =
      l'.awaitPeer timeout deadline behind := by
  induction h with
  | nothing => rfl
  | dropped early event known stranger time rest ih =>
      obtain ⟨-, -, hdropped⟩ := awaitPeer_of_datagram timeout early event (_ ++ behind)
      rw [List.cons_append, hdropped _ known stranger, if_neg (Nat.not_le.2 time), ih]

/-- Of the link, only the clock and the log know of what was dropped. -/
theorem changes (h : StillWaits deadline l front l') : ∃ now log, l' = { l with now, log } := by
  induction h with
  | nothing => exact ⟨_, _, rfl⟩
  | dropped _ _ _ _ _ _ ih =>
      obtain ⟨now, log, rfl⟩ := ih
      exact ⟨now, log, rfl⟩

end StillWaits

/-- A receive ends with what comes first, whatever comes behind, or is still waiting. -/
def EndsWithin (timeout : Duration) (deadline : Nat) (l : NetworkLink)
    (front : List (Arrival Incoming)) : Prop :=
  ∃ answer after left, ∀ behind, l.awaitPeer timeout deadline (front ++ behind) =
    (answer, onSocket (left ++ behind) after)

theorem EndsWithin.append {deadline : Nat} {front : List (Arrival Incoming)}
    (h : EndsWithin timeout deadline l front) (more : List (Arrival Incoming)) :
    EndsWithin timeout deadline l (front ++ more) := by
  obtain ⟨answer, after, left, hends⟩ := h
  refine ⟨answer, after, left ++ more, fun behind => ?_⟩
  rw [List.append_assoc, hends, List.append_assoc]

/-- Only a stranger's datagram before the deadline keeps a receive waiting. -/
theorem endsWithin_or_dropped (timeout : Duration) (deadline : Nat) (l : NetworkLink)
    (a : Arrival Incoming) : EndsWithin timeout deadline l [a] ∨
      ∃ d peer, a.wait ≤ patience (l.remaining deadline) ∧ a.event = .datagram d ∧
        l.peer = some peer ∧ peer ≠ d.far ∧ 1000 * (l.dropping a d).now < deadline := by
  by_cases early : a.wait ≤ patience (l.remaining deadline)
  · cases event : a.event with
    | failed e =>
        exact .inl ⟨_, l.waited a.wait [], [], fun _ => awaitPeer_of_failed early event _⟩
    | datagram d =>
        have hread (rest : List (Arrival Incoming)) :=
          awaitPeer_of_datagram timeout early event rest
        cases known : l.peer with
        | none =>
            exact .inl ⟨_, (l.waited a.wait []).learning d, [], fun _ => (hread _).1 known⟩
        | some peer =>
            by_cases stranger : peer = d.far
            · subst stranger
              exact .inl ⟨_, l.waited a.wait [], [], fun _ => (hread _).2.1 known⟩
            · by_cases time : deadline ≤ 1000 * (l.dropping a d).now
              · refine .inl ⟨.error (.timeout timeout), l.dropping a d, [], fun _ => ?_⟩
                exact ((hread _).2.2 peer known stranger).trans (if_pos time)
              · exact .inr ⟨d, peer, early, rfl, rfl, stranger, Nat.not_le.1 time⟩
  · exact .inl ⟨_, l.waited (patience (l.remaining deadline)) [], [_],
      fun _ => awaitPeer_of_late (Nat.not_le.1 early) _⟩

theorem endsWithin_or_stillWaits (timeout : Duration) (deadline : Nat) (l : NetworkLink)
    (front : List (Arrival Incoming)) :
    EndsWithin timeout deadline l front ∨ ∃ l', StillWaits deadline l front l' := by
  induction front generalizing l with
  | nil => exact .inr ⟨l, .nothing l⟩
  | cons a front ih =>
      rcases endsWithin_or_dropped timeout deadline l a with
        hends | ⟨d, peer, early, event, known, stranger, time⟩
      · exact .inl (hends.append front)
      · rcases ih (l.dropping a d) with ⟨answer, after, left, hends⟩ | ⟨l', hwaits⟩
        · -- The end comes later on, so the drop goes in front of whatever follows.
          have hdropped : StillWaits deadline l [a] (l.dropping a d) :=
            .dropped early event known stranger time (.nothing _)
          refine .inl ⟨answer, after, left, fun behind => ?_⟩
          rw [← hends]
          exact hdropped.awaitPeer_append timeout (front ++ behind)
        · exact .inr ⟨l', .dropped early event known stranger time hwaits⟩

def deadline (timeout : Duration) (l : NetworkLink) : Nat := 1000 * l.now + timeout.nanos

/-- A receive that has failed for a signal. What it has dropped is gone, and nothing else. -/
structure CutShort (l : NetworkLink) (e : IoError) (behind : List (Arrival Incoming))
    (r : Except LinkError Bytes × NetworkLink) : Prop where
  answer : r.1 = .error (.io e.text)
  peer : r.2.peer = l.peer
  outOfStep : r.2.outOfStep = l.outOfStep
  unread : r.2.stream = l.stream
  incoming : r.2.socket.incoming = behind

/-- What `signal` does where it comes behind the arrivals of `front`. -/
structure AtSignal (timeout : Duration) (l : NetworkLink) (front cut : List (Arrival Incoming))
    (signal : Arrival Incoming) (e : IoError) : Prop where
  ended : (¬∃ waiting, StillWaits (l.deadline timeout) l front waiting) →
    SameReceive (l.receiveRealtime timeout)
      ((l.onSocket (front ++ signal :: cut)).receiveRealtime timeout)
  waits : ∀ waiting, StillWaits (l.deadline timeout) l front waiting →
    signal.wait ≤ patience (waiting.remaining (l.deadline timeout)) →
      CutShort l e cut ((l.onSocket (front ++ signal :: cut)).receiveRealtime timeout)
  /-- A control loop that has come to this receive ends here. -/
  loop : ∀ waiting, StillWaits (l.deadline timeout) l front waiting →
    signal.wait ≤ patience (waiting.remaining (l.deadline timeout)) →
      ∀ {ρ : Type} (c : ControlLoop ρ) (user : ρ), c.receiver.timeout = timeout →
        ∃ run, c.cycle (l.onSocket (front ++ signal :: cut)) user = .ended run ∧
          run.result = .error (.link (.io e.text)) ∧ run.user = user ∧ run.events = []

section

variable {limit : Nat} {front behind cut : List (Arrival Incoming)} {signal : Arrival Incoming}
  {e : IoError}

theorem receiveRealtime_onSocket (timeout : Duration) (l : NetworkLink)
    (incoming : List (Arrival Incoming)) : (l.onSocket incoming).receiveRealtime timeout =
      l.awaitPeer timeout (l.deadline timeout) incoming :=
  awaitPeer_onSocket timeout (l.deadline timeout) l incoming incoming

/-- A signal that comes too late for a receive is left on the socket. -/
theorem sameReceive_of_endsWithin (h : EndsWithin timeout (l.deadline timeout) l front)
    (hincoming : l.socket.incoming = front ++ behind)
    (hcut : Interrupts limit Incoming.IsSignal behind cut) (hsignal : signal.event.IsSignal) :
    SameReceive (l.receiveRealtime timeout)
      ((l.onSocket (front ++ signal :: cut)).receiveRealtime timeout) := by
  obtain ⟨answer, after, left, hends⟩ := h
  have hplain : l.receiveRealtime timeout = (answer, after.onSocket (left ++ behind)) := by
    rw [← hends, ← hincoming]
    rfl
  have hleft := (datagrams_signal hsignal left cut after).trans
    (datagrams_interrupted hcut left after)
  rw [receiveRealtime_onSocket, hends, hplain]
  exact ⟨rfl, rfl, rfl, rfl, hleft⟩

theorem cutShort_of_stillWaits {waiting : NetworkLink}
    (h : StillWaits (l.deadline timeout) l front waiting)
    (early : signal.wait ≤ patience (waiting.remaining (l.deadline timeout)))
    (hevent : signal.event = .failed e) (hkind : e.kind = .interrupted)
    (cut : List (Arrival Incoming)) :
    CutShort l e cut ((l.onSocket (front ++ signal :: cut)).receiveRealtime timeout) := by
  have hanswer : e.onRead timeout = .io e.text := by
    rw [IoError.onRead, IoError.onStream, hkind]
  rw [receiveRealtime_onSocket, h.awaitPeer_append, awaitPeer_of_failed early hevent, hanswer]
  obtain ⟨now, log, rfl⟩ := h.changes
  exact ⟨rfl, rfl, rfl, rfl, rfl⟩

theorem atSignal (hincoming : l.socket.incoming = front ++ behind)
    (hcut : Interrupts limit Incoming.IsSignal behind cut) (hevent : signal.event = .failed e)
    (hkind : e.kind = .interrupted) (timeout : Duration) :
    AtSignal timeout l front cut signal e := by
  refine ⟨?_, ?_, ?_⟩
  · intro hnever
    rcases endsWithin_or_stillWaits timeout (l.deadline timeout) l front with hends | hwaits
    · have hsignal : signal.event.IsSignal := by
        rw [hevent]
        exact hkind
      exact sameReceive_of_endsWithin hends hincoming hcut hsignal
    · exact absurd hwaits hnever
  · intro waiting hwaits early
    exact cutShort_of_stillWaits hwaits early hevent hkind cut
  · intro waiting hwaits early ρ c user htimeout
    have hfailed := (cutShort_of_stillWaits hwaits early hevent hkind cut).answer
    rw [← htimeout] at hfailed
    have hbreaks : ControlLoop.Breaks c (l.onSocket (front ++ signal :: cut)) user _ :=
      .receive (Prod.ext hfailed rfl)
    exact ⟨_, ControlLoop.cycle_of_breaks hbreaks, rfl, rfl, rfl⟩

end

/-- Signals make no difference to a receive on the service channel. Of those on the realtime channel
the first makes no difference if the receive has come to its end before it; a receive that is still
waiting fails. -/
theorem receive_with_signals (l : NetworkLink) (timeout : Duration) :
    (∀ inflow, Interrupts (patience timeout) Inflow.IsSignal l.stream.inflow inflow →
      SameReceive (l.receiveService timeout) ((l.onStream inflow).receiveService timeout)) ∧
    ∀ limit front behind cut signal e, l.socket.incoming = front ++ behind →
      Interrupts limit Incoming.IsSignal behind cut → signal.event = .failed e →
        e.kind = .interrupted → AtSignal timeout l front cut signal e :=
  ⟨fun _ h => receiveService_interrupted h,
    fun _ _ _ _ _ _ hincoming hcut hevent hkind => atSignal hincoming hcut hevent hkind timeout⟩

/-- A signal comes in the middle of a message on the service channel, and one behind the datagram of
a stranger on the realtime channel. -/
theorem receive_with_signals_of_stranger :
    let arm : Endpoint := ⟨.v4 192 168 0 1, 0, 4000⟩
    let stranger : Endpoint := ⟨.v4 192 168 0 2, 0, 4000⟩
    let timeout : Duration := .ofMillis 1
    let e : IoError := ⟨.interrupted, "Interrupted system call (os error 4)"⟩
    let inflow : List (Arrival Inflow) := [⟨10, .chunk 1 [0, 0, 0]⟩, ⟨0, .chunk 9 []⟩]
    let cutInflow := [⟨10, .chunk 1 [0, 0, 0]⟩, ⟨5, .failed e⟩, ⟨0, .chunk 9 []⟩]
    let front : List (Arrival Incoming) := [⟨20, .datagram ⟨stranger, [7]⟩⟩]
    let behind : List (Arrival Incoming) := [⟨20, .datagram ⟨arm, [8]⟩⟩]
    let l : NetworkLink :=
      { listening (front ++ behind) with stream := ⟨inflow, [], []⟩, peer := some arm }
    Interrupts (patience timeout) Inflow.IsSignal inflow cutInflow ∧
      SameReceive (l.receiveService timeout) ((l.onStream cutInflow).receiveService timeout) ∧
      (∃ waiting, StillWaits (l.deadline timeout) l front waiting ∧
        5 ≤ patience (waiting.remaining (l.deadline timeout))) ∧
      AtSignal timeout l front behind ⟨5, .failed e⟩ e := by
  intro arm stranger timeout e inflow cutInflow front behind l
  have hcut : Interrupts (patience timeout) Inflow.IsSignal inflow cutInflow :=
    .kept _ (.signal (by decide) rfl (.kept _ .none))
  have hwaits : StillWaits (l.deadline timeout) l front _ :=
    .dropped (by decide) rfl rfl (by decide) (by decide) (.nothing _)
  obtain ⟨hservice, hrealtime⟩ := receive_with_signals l timeout
  exact ⟨hcut, hservice cutInflow hcut, ⟨_, hwaits, by decide⟩,
    hrealtime 0 front behind behind ⟨5, .failed e⟩ e rfl (.kept _ .none) rfl rfl⟩

theorem sendRealtime_of_peer {peer : Endpoint} {m : Bytes} (hpeer : l.peer = some peer)
    (hsize : m.length ≤ maxDatagram) (hfree : l.socket.outcomes = []) :
    (l.sendRealtime m).1 = .ok () := by
  rw [sendRealtime, hpeer]
  dsimp only
  rw [if_neg (Nat.not_lt.2 hsize), DatagramSocket.transmit, hfree]
  rfl

/-- A signal comes just before the only state that a control loop has to answer. -/
theorem signal_ends_control_loop :
    let arm : Endpoint := ⟨.v4 192 168 0 1, 0, 4000⟩
    let timeout : Duration := .ofMillis 1
    let e : IoError := ⟨.interrupted, "Interrupted system call (os error 4)"⟩
    let state : Arrival Incoming := ⟨10, .datagram ⟨arm, RobotState.initial.encode⟩⟩
    let plain := listening [state]
    let cut := listening [⟨5, .failed e⟩, state]
    let stop : Callback Nat := fun s _ n =>
      (.ofSetpoint .jointPosition ⟨s.jointPositions, true⟩, n + 1)
    let c : ControlLoop Nat :=
      ⟨.motionOnly .jointPosition, some stop, none, .new timeout, .idle, 0⟩
    Interrupts (patience timeout) Incoming.IsSignal plain.socket.incoming cut.socket.incoming ∧
      (plain.receiveRealtime timeout).1 = .ok RobotState.initial.encode ∧
      (cut.receiveRealtime timeout).1 = .error (.io e.text) ∧
      (plain.receiveRealtime timeout).2.peer = some arm ∧
      (cut.receiveRealtime timeout).2.peer = none ∧
      (c.run plain 0).result = .ok () ∧ (c.run cut 0).result = .error (.link (.io e.text)) := by
  intro arm timeout e state plain cut stop c
  let d : Datagram := ⟨arm, RobotState.initial.encode⟩
  have hheard : d.heard = RobotState.initial.encode := by
    apply List.take_of_length_le
    rw [RobotState.length_encode]
    decide
  have hread : plain.receiveRealtime timeout = (.ok d.heard, (plain.waited 10 []).learning d) :=
    (awaitPeer_of_datagram (a := state) timeout (by decide) rfl []).1 rfl
  rw [hheard] at hread
  have hcut : (cut.receiveRealtime timeout).1 = .error (.io e.text) := by decide
  refine ⟨.signal (by decide) rfl (.kept _ .none), by rw [hread], hcut, by rw [hread]; rfl,
    by decide, ?_, ?_⟩
  · let command : RobotCommand :=
      ⟨0, some ⟨.jointPosition, ⟨RobotState.initial.jointPositions, true⟩⟩, none⟩
    have hsize : command.encode.length ≤ maxDatagram := by
      rw [RobotCommand.length_encode]
      decide
    have hsend := sendRealtime_of_peer (l := (plain.waited 10 []).learning d) rfl hsize rfl
    have hdecode : RobotState.decode RobotState.initial.encode = .ok .initial :=
      RobotState.decode_encode_of_zero rfl
    have htake : c.receiver.take RobotState.initial.encode =
        .ok (.initial, .zero, { c.receiver with last := some (0, .zero) }) :=
      Receiver.take_eq_ok_iff.2 ⟨hdecode, rfl⟩
    have hexchange : ControlLoop.Exchanges c plain 0
        ⟨⟨RobotState.initial.encode, .initial, .zero⟩, c.dispatch .initial .zero 0, command⟩ _ _ :=
      ⟨⟨_, hread, Prod.ext hsend rfl⟩, htake, rfl, rfl, by decide⟩
    rw [ControlLoop.run_eq rfl, (ControlLoop.Course.finished hexchange rfl).cycles_eq]
  · have hbreaks : ControlLoop.Breaks c cut 0 _ := .receive (Prod.ext hcut rfl)
    rw [ControlLoop.run_eq rfl, ControlLoop.cycles_of_ended (ControlLoop.cycle_of_breaks hbreaks)]

end NetworkLink

end ArmSession.Net
