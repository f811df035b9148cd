import ArmSession.Proofs.StateMessage
import ArmSession.Proofs.StateStream

/-!
# What a read shows, and where it stops

A read of a scripted link goes through the realtime queue from the front. It shows the state of an
entry if it can accept it, and what it makes of the next one does not depend on what the state says
of faults or of the motion. It ends well behind the state to which the predicate says no, and it
fails at the first entry that holds no state, or none that comes after the state before it.
-/

namespace ArmSession

namespace Predicate

variable {τ : Type}

def after (p : Predicate τ) (t : τ) (states : List RobotState) : τ :=
  states.foldl (fun t s => (p s t).2) t

theorem length_answers (p : Predicate τ) (t : τ) (states : List RobotState) :
    (p.answers t states).length = states.length := by
  induction states generalizing t with
  | nil => rfl
  | cons s states ih => exact congrArg (· + 1) (ih (p s t).2)

end Predicate

/-- Why a message is not accepted, if it is not. Of the states before it matters which id the last
one had. -/
def messageRefusal? (last : Option UInt64) (m : Bytes) : Option Failure :=
  match RobotState.decode m with
  | .error e => some (.message e)
  | .ok s => last.bind fun id =>
    if s.messageId ≤ id then some (.outOfOrder s.messageId id) else none

def refusal? (timeout : Duration) (last : Option UInt64) : Option ScriptedReply → Option Failure
  | none => some (.link (.timeout timeout))
  | some .timeout => some (.link (.timeout timeout))
  | some .disconnect => some (.link .closed)
  | some (.message m) => messageRefusal? last m

/-- The kind of failure that an entry is to blame for: what is missing or broken on the link is a
network failure, and what is wrong with a message a protocol failure. -/
def blame : Option ScriptedReply → FailureKind
  | some (.message _) => .protocol
  | _ => .network

theorem kind_of_messageRefusal {last : Option UInt64} {m : Bytes} {e : Failure}
    (h : messageRefusal? last m = some e) : e.kind = .protocol := by
  unfold messageRefusal? at h
  cases hdecode : RobotState.decode m with
  | error cause =>
      rw [hdecode] at h
      cases h
      rfl
  | ok s =>
      rw [hdecode] at h
      obtain ⟨id, -, hid⟩ := Option.bind_eq_some_iff.1 h
      obtain ⟨-, hid⟩ := Option.ite_none_right_eq_some.1 hid
      cases hid
      rfl

theorem kind_of_refusal {timeout : Duration} {last : Option UInt64} {entry : Option ScriptedReply}
    {e : Failure} (h : refusal? timeout last entry = some e) : e.kind = blame entry := by
  cases entry with
  | none => cases h; rfl
  | some reply =>
      cases reply with
      | timeout => cases h; rfl
      | disconnect => cases h; rfl
      | message m => exact kind_of_messageRefusal h

namespace Receiver

variable {r r' : Receiver} {link link' : ScriptedLink}

def lastId (r : Receiver) : Option UInt64 := r.last.map Prod.fst

theorem refusal_of_take {m : Bytes} {e : Failure} (h : r.take m = .error e) :
    messageRefusal? r.lastId m = some e := by
  unfold messageRefusal?
  rcases take_eq_error h with ⟨cause, hdecode, rfl⟩ | ⟨s, id, hdecode, hbefore, rfl⟩
  · rw [hdecode]
  · obtain ⟨time, hlast, hle⟩ := precededBy?_eq_some hbefore
    rw [hdecode, lastId, hlast]
    exact if_pos hle

/-- A receiver that fails on an open link has taken the next entry and refuses it. -/
theorem next_eq_error {e : Failure} (hopen : link.closed = false)
    (h : r.next link = (.error e, link')) :
    refusal? r.timeout r.lastId link.realtime.head? = some e ∧
      link' = { link with
        realtime := link.realtime.tail, closed := link.realtime.head? = some .disconnect } := by
  obtain ⟨service, realtime, sent, budget, closed, port⟩ := link
  obtain rfl : closed = false := hopen
  cases realtime with
  | nil => cases h; exact ⟨rfl, rfl⟩
  | cons reply rest =>
      cases reply with
      | timeout => cases h; exact ⟨rfl, rfl⟩
      | disconnect => cases h; exact ⟨rfl, rfl⟩
      | message m =>
          rw [next_of_receive_ok (m := m) rfl] at h
          obtain ⟨htake, rfl⟩ := Prod.mk.inj h
          exact ⟨refusal_of_take htake, rfl⟩

theorem next_eq_ok {s : RobotState} {period : Duration}
    (h : r.next link = (.ok (s, period, r'), link')) : ∃ m rest,
      link.realtime = .message m :: rest ∧ link' = { link with realtime := rest } ∧
        r.take m = .ok (s, period, r') := by
  cases hreceive : Link.receive .realtime r.timeout link with
  | mk answer between =>
  cases answer with
  | error e =>
      rw [next_of_receive_error hreceive] at h
      cases h
  | ok m =>
      rw [next_of_receive_ok hreceive] at h
      obtain ⟨htake, rfl⟩ := Prod.mk.inj h
      obtain ⟨hfront, hlink⟩ := ScriptedLink.receive_eq_ok_iff.1 hreceive
      obtain ⟨-, rest, hqueue⟩ := ScriptedLink.front?_eq_some_iff.1 hfront
      rw [hqueue] at hlink
      exact ⟨m, rest, hqueue, hlink, htake⟩

end Receiver

namespace Reading

variable {τ : Type} {p : Predicate τ} {link : ScriptedLink} {t : τ} {timeout : Duration}
  {last : Option UInt64} {reading : Reading ScriptedLink τ}

/-- How a read ends that began behind the id `last`. Either the predicate says no to the last state
that is shown, and the entries behind it are left; or it says yes to all of them, and the entry
behind them is taken and refused. -/
inductive EndsAt (timeout : Duration) (last : Option UInt64) (p : Predicate τ) (link : ScriptedLink)
    (t : τ) (reading : Reading ScriptedLink τ) : Prop
  | enough {n : Nat} (answers : p.answers t reading.seen = List.replicate n true ++ [false])
      (result : reading.result = .ok ())
      (left : reading.link = { link with realtime := link.realtime.drop reading.seen.length })
  | refused {e : Failure}
      (answers : p.answers t reading.seen = List.replicate reading.seen.length true)
      (cause : refusal? timeout ((reading.seen.getLast?.map (·.messageId)).or last)
        link.realtime[reading.seen.length]? = some e)
      (result : reading.result = .error e)
      (kind : e.kind = blame link.realtime[reading.seen.length]?)
      (left : reading.link = { link with
        realtime := link.realtime.drop (reading.seen.length + 1)
        closed := link.realtime[reading.seen.length]? = some .disconnect })

theorem EndsAt.more {s : RobotState} {m : Bytes} {rest : List ScriptedReply}
    (hyes : (p s t).1 = true) (hqueue : link.realtime = .message m :: rest)
    (h : EndsAt timeout (some s.messageId) p { link with realtime := rest } (p s t).2 reading) :
    EndsAt timeout last p link t (reading.after [s]) := by
  have hanswers : p.answers t (reading.after [s]).seen =
      true :: p.answers (p s t).2 reading.seen := by
    rw [← hyes]
    rfl
  have hlength : (reading.after [s]).seen.length = reading.seen.length + 1 := rfl
  -- The entry that is refused comes behind the last state shown, which may be `s` itself.
  have hlast : (reading.seen.getLast?.map (·.messageId)).or (some s.messageId) =
      ((reading.after [s]).seen.getLast?.map (·.messageId)).or last := by
    rw [show (reading.after [s]).seen = s :: reading.seen from rfl, List.getLast?_cons]
    cases reading.seen.getLast? <;> rfl
  cases h with
  | @enough n answers result left =>
      refine .enough (n := n + 1) ?_ result ?_
      · rw [hanswers, answers]
        rfl
      · rw [hlength, hqueue]
        exact left
  | @refused e answers cause result kind left =>
      refine .refused (e := e) ?_ ?_ result ?_ ?_
      · rw [hanswers, answers, hlength]
        rfl
      · rw [hlength, hqueue]
        rw [← hlast]
        exact cause
      · rw [hlength, hqueue]
        exact kind
      · rw [hlength, hqueue]
        exact left

theorem endsAt_run (p : Predicate τ) (r : Receiver) (link : ScriptedLink) (t : τ) (count : UInt64)
    (hopen : link.closed = false) :
    EndsAt r.timeout r.lastId p link t (run p r link t count) := by
  induction r, link, t, count using @Reading.run.induct ScriptedLink τ _ p with
  | case1 r link t count e link' hnext =>
      obtain ⟨hrefusal, rfl⟩ := Receiver.next_eq_error hopen hnext
      rw [run_of_error hnext]
      rw [List.head?_eq_getElem?] at hrefusal ⊢
      refine .refused rfl hrefusal rfl (kind_of_refusal hrefusal) ?_
      rw [← List.drop_one]
      rfl
  | case2 r link t count s period r' link' hnext t' hyes ih =>
      obtain ⟨m, rest, hqueue, rfl, htake⟩ := Receiver.next_eq_ok hnext
      have hrest := ih hopen
      have hlast : r'.lastId = some s.messageId := by
        rw [Receiver.lastId, Receiver.last_of_take htake]
        rfl
      rw [hlast, Receiver.timeout_of_take htake] at hrest
      rw [run_of_yes hnext (congrArg Prod.fst hyes)]
      rw [show t' = (p s t).2 by rw [hyes]] at hrest
      exact hrest.more (congrArg Prod.fst hyes) hqueue
  | case3 r link t count s period r' link' hnext t' hno =>
      obtain ⟨m, rest, hqueue, rfl, -⟩ := Receiver.next_eq_ok hnext
      rw [run_of_no hnext (congrArg Prod.fst hno)]
      refine .enough (n := 0) ?_ rfl ?_
      · rw [Predicate.answers, hno]
        rfl
      · rw [hqueue]
        rfl

/-- The predicate is asked about the states that are shown, each of them once and in order. -/
theorem user_run {σ : Type} [Link σ] (p : Predicate τ) (r : Receiver) (link : σ) (t : τ)
    (count : UInt64) :
    (run p r link t count).user = p.after t (run p r link t count).seen := by
  induction r, link, t, count using @Reading.run.induct σ τ _ p with
  | case1 r link t count e link' hnext =>
      rw [run_of_error hnext]
      rfl
  | case2 r link t count s period r' link' hnext t' hyes ih =>
      rw [run_of_ok hnext, hyes]
      rw [Predicate.after, List.foldl_cons, hyes]
      exact ih
  | case3 r link t count s period r' link' hnext t' hno =>
      rw [run_of_ok hnext, hno]
      rw [Predicate.after, List.foldl_cons, hno]
      rfl

/-- The states that are shown are those of the first entries. -/
theorem arrived_run (p : Predicate τ) (r : Receiver) (link : ScriptedLink) (t : τ) (count : UInt64)
    {k : Nat} {s : RobotState} (h : (run p r link t count).seen[k]? = some s) :
    ∃ m, link.realtime[k]? = some (.message m) ∧ RobotState.decode m = .ok s := by
  obtain ⟨accepted, refused, hstretch, hseen, -⟩ := stretch p r link t count rfl
  obtain ⟨r', htakes, -⟩ := hstretch.taken
  rw [hseen, List.getElem?_map] at h
  obtain ⟨x, hx, rfl⟩ := Option.map_eq_some_iff.1 h
  have hk : k < accepted.length := (List.getElem?_eq_some_iff.1 hx).1
  refine ⟨x.message, ?_, htakes.decode_message (List.mem_of_getElem? hx)⟩
  rw [hstretch.queue, List.append_assoc, List.getElem?_append_left (by simpa using hk),
    List.getElem?_map, hx]
  rfl

theorem EndsAt.onward (h : EndsAt timeout last p link t reading) {k : Nat} {s : RobotState}
    (hs : reading.seen[k]? = some s) (hyes : (p.answers t reading.seen)[k]? = some true)
    (hlast : reading.seen.length ≤ k + 1) : ∃ e, reading.result = .error e ∧
      refusal? timeout (some s.messageId) link.realtime[k + 1]? = some e := by
  have hk : k < reading.seen.length := (List.getElem?_eq_some_iff.1 hs).1
  have hlength : reading.seen.length = k + 1 := by omega
  cases h with
  | @enough n answers result left =>
      have hn := congrArg List.length answers
      rw [Predicate.length_answers, hlength, List.length_append, List.length_replicate] at hn
      obtain rfl : k = n := Nat.succ.inj hn
      rw [answers, List.getElem?_append_right (by simp)] at hyes
      simp at hyes
  | @refused e answers cause result kind left =>
      rw [List.getLast?_eq_getElem?, hlength, Nat.add_sub_cancel, hs] at cause
      exact ⟨e, result, cause⟩

structure GoesThrough (timeout : Duration) (p : Predicate τ) (link : ScriptedLink) (t : τ)
    (reading : Reading ScriptedLink τ) : Prop where
  /-- Each state that is shown is the one in the entry with its place. -/
  arrived : ∀ (k : Nat) s, reading.seen[k]? = some s →
    ∃ m, link.realtime[k]? = some (.message m) ∧ RobotState.decode m = .ok s
  increasing : (reading.seen.map (·.messageId)).Pairwise (· < ·)
  /-- The predicate was asked about each of these states once, in this order. -/
  asked : reading.user = p.after t reading.seen
  ending : EndsAt timeout none p link t reading
  /-- Whatever a state says of faults or of the motion, after a yes the read goes on. -/
  onward : ∀ (k : Nat) s, reading.seen[k]? = some s →
    (p.answers t reading.seen)[k]? = some true → reading.seen.length ≤ k + 1 →
      ∃ e, reading.result = .error e ∧
        refusal? timeout (some s.messageId) link.realtime[k + 1]? = some e
  /-- Nothing is sent on either channel, and no call tries to. -/
  silent : reading.link.sent = link.sent ∧
    ∀ call ∈ (readLoop timeout p (Traced.start link) t).link.calls, call.isReceive = true

/-- A read of an open link goes through its queue state by state, and ends where the predicate has
had enough or at the first entry that it cannot accept. -/
theorem read_goes_through_queue (hopen : link.closed = false) (timeout : Duration)
    (p : Predicate τ) (t : τ) : GoesThrough timeout p link t (readLoop timeout p link t) := by
  have hending : EndsAt timeout none p link t (readLoop timeout p link t) :=
    endsAt_run p (.new timeout) link t 0 hopen
  obtain ⟨accepted, refused, hstretch, hseen, hsent⟩ := stretch p (.new timeout) link t 0 rfl
  obtain ⟨r', htakes, -⟩ := hstretch.taken
  refine ⟨fun k s => arrived_run p _ link t 0, ?_, user_run p _ link t 0, hending,
    fun k s => hending.onward, hsent, ?_⟩
  · rw [readLoop, hseen, List.map_map]
    exact htakes.pairwise_ids
  · obtain ⟨-, heard, hcalls⟩ := run_traced p (.new timeout) (Traced.start link) t 0
    intro call hcall
    rw [readLoop, hcalls] at hcall
    obtain ⟨answer, -, rfl⟩ := List.mem_map.1 hcall
    rfl

/-- The first state has a fault and says that the motion is finished, and the read goes on. It fails
on the third entry, which comes a second time, and leaves the fourth. -/
theorem read_goes_through_queue_of_duplicate :
    let at' : UInt64 → RobotState := fun id => { RobotState.initial with messageId := id }
    let faulty : RobotState :=
      { at' 7 with motionFinished := true, fault := some .cartesianReflex }
    let link := ScriptedLink.ofStates [faulty, at' 8, at' 8, at' 9]
    let watch : Predicate Nat := fun _ n => (true, n + 1)
    let reading := readLoop (.ofMillis 100) watch link 0
    link.closed = false ∧ GoesThrough (.ofMillis 100) watch link 0 reading ∧
      reading.seen = [faulty, at' 8] ∧ reading.result = .error (.outOfOrder 8 8) ∧
      reading.user = 2 ∧ reading.link.realtime = [.message (at' 9).encode] := by
  intro at' faulty link watch reading
  have hgoes : GoesThrough (.ofMillis 100) watch link 0 reading :=
    read_goes_through_queue rfl (.ofMillis 100) watch 0
  let left (states : List RobotState) : ScriptedLink :=
    { link with realtime := states.map (.message ·.encode) }
  let behind (id : UInt64) : Receiver := ⟨.ofMillis 100, some (id, .zero)⟩
  have hfirst : (Receiver.new (.ofMillis 100)).next link =
      (.ok (faulty, .zero, behind 7), left [at' 8, at' 8, at' 9]) := by
    rw [Receiver.next_of_receive_ok (m := faulty.encode) rfl,
      Receiver.take_eq_ok_iff.2 ⟨RobotState.decode_encode_of_zero rfl, rfl⟩]
    rfl
  have hsecond : (behind 7).next (left [at' 8, at' 8, at' 9]) =
      (.ok (at' 8, .zero, behind 8), left [at' 8, at' 9]) := by
    rw [Receiver.next_of_receive_ok (m := (at' 8).encode) rfl,
      Receiver.take_eq_ok_iff.2 ⟨RobotState.decode_encode_of_zero rfl, rfl⟩]
    rfl
  have hthird : (behind 8).next (left [at' 8, at' 9]) =
      (.error (.outOfOrder 8 8), left [at' 9]) := by
    rw [Receiver.next_of_receive_ok (m := (at' 8).encode) rfl]
    unfold Receiver.take
    rw [RobotState.decode_encode_of_zero rfl]
    rfl
  have hreading : reading = ⟨.error (.outOfOrder 8 8), left [at' 9], 2, [faulty, at' 8], 2⟩ := by
    change run watch _ link 0 0 = _
    rw [run_of_yes hfirst rfl, run_of_yes hsecond rfl, run_of_error hthird]
    rfl
  refine ⟨rfl, hgoes, ?_⟩
  rw [hreading]
  exact ⟨rfl, rfl, rfl, rfl⟩

end Reading

end ArmSession
