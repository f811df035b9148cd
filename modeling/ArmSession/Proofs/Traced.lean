import ArmSession.Reading
import ArmSession.Proofs.Course

/-!
# Links that keep a record of their calls

A traced link behaves as the link inside it and writes down every call with its answer. A run on
a traced link is the run on the link inside, so the record tells what the run asks of any link. The
same holds of a reading.
-/

namespace ArmSession

inductive LinkCall
  | send (channel : Channel) (message : Bytes) (answer : Except LinkError Unit)
  | receive (channel : Channel) (timeout : Duration) (answer : Except LinkError Bytes)

def LinkCall.isReceive : LinkCall → Bool
  | receive _ _ _ => true
  | send _ _ _ => false

structure Traced (σ : Type) where
  link : σ
  calls : List LinkCall

def Run.mapLink {σ τ ρ : Type} (f : σ → τ) (r : Run σ ρ) : Run τ ρ :=
  ⟨r.result, r.loop, f r.link, r.user, r.events⟩

namespace Traced

variable {σ : Type} [Link σ] {t t' : Traced σ}

def start (link : σ) : Traced σ := ⟨link, []⟩

instance : Link (Traced σ) where
  send c m t :=
    let (answer, link) := Link.send c m t.link
    (answer, ⟨link, t.calls ++ [.send c m answer]⟩)
  receive c timeout t :=
    let (answer, link) := Link.receive c timeout t.link
    (answer, ⟨link, t.calls ++ [.receive c timeout answer]⟩)
  realtimePort t := Link.realtimePort t.link

theorem send_eq {c : Channel} {m : Bytes} {answer : Except LinkError Unit}
    (h : Link.send c m t = (answer, t')) :
    Link.send c m t.link = (answer, t'.link) ∧ t'.calls = t.calls ++ [.send c m answer] := by
  cases h
  exact ⟨rfl, rfl⟩

theorem receive_eq {c : Channel} {timeout : Duration} {answer : Except LinkError Bytes}
    (h : Link.receive c timeout t = (answer, t')) :
    Link.receive c timeout t.link = (answer, t'.link) ∧
      t'.calls = t.calls ++ [.receive c timeout answer] := by
  cases h
  exact ⟨rfl, rfl⟩

end Traced

def Exchange.calls {ρ : Type} (timeout : Duration) (x : Exchange ρ) : List LinkCall :=
  [.receive .realtime timeout (.ok x.message), .send .realtime x.command.encode (.ok ())]

/-- The calls of a cycle that breaks off: it asks for a state, and it goes on to send a command
only if that is what fails. -/
inductive BrokenCalls (timeout : Duration) : List LinkCall → Prop
  | unanswered (answer : Except LinkError Bytes) :
      BrokenCalls timeout [.receive .realtime timeout answer]
  | unsent (m command : Bytes) (e : LinkError) : BrokenCalls timeout
      [.receive .realtime timeout (.ok m), .send .realtime command (.error e)]

theorem countP_flatMap_calls_of_one {ρ : Type} {timeout : Duration} {q : LinkCall → Bool}
    (hone : ∀ x : Exchange ρ, (x.calls timeout).countP q = 1) (xs : List (Exchange ρ)) :
    (xs.flatMap (Exchange.calls timeout)).countP q = xs.length := by
  induction xs with
  | nil => rfl
  | cons x xs ih =>
      rw [List.flatMap_cons, List.countP_append, ih, hone, List.length_cons, Nat.add_comm]

theorem countP_flatMap_calls {ρ : Type} (timeout : Duration) (xs : List (Exchange ρ)) :
    (xs.flatMap (Exchange.calls timeout)).countP LinkCall.isReceive = xs.length :=
  countP_flatMap_calls_of_one (fun _ => rfl) xs

theorem BrokenCalls.countP_eq {timeout : Duration} {calls : List LinkCall}
    (h : BrokenCalls timeout calls) : calls.countP LinkCall.isReceive = 1 := by
  cases h <;> rfl

namespace ControlLoop

variable {σ ρ : Type} [Link σ] {c : ControlLoop ρ} {t t' : Traced σ} {user : ρ}

theorem Exchanges.untraced {x : Exchange ρ} {receiver : Receiver}
    (h : Exchanges c t user x receiver t') :
    Exchanges c t.link user x receiver t'.link ∧
      t'.calls = t.calls ++ x.calls c.receiver.timeout := by
  obtain ⟨⟨between, hreceive, hsend⟩, htake, hfault, hasked, hcombined⟩ := h
  obtain ⟨hreceive, hbetween⟩ := Traced.receive_eq hreceive
  obtain ⟨hsend, hlast⟩ := Traced.send_eq hsend
  refine ⟨⟨⟨between.link, hreceive, hsend⟩, htake, hfault, hasked, hcombined⟩, ?_⟩
  rw [hlast, hbetween, Exchange.calls]
  simp

theorem Breaks.untraced {run : Run (Traced σ) ρ} (h : Breaks c t user run) :
    Breaks c t.link user (run.mapLink Traced.link) ∧
      ∃ ending, BrokenCalls c.receiver.timeout ending ∧ run.link.calls = t.calls ++ ending := by
  cases h with
  | receive failed =>
      obtain ⟨hreceive, hcalls⟩ := Traced.receive_eq failed
      exact ⟨.receive hreceive, _, .unanswered _, hcalls⟩
  | take arrived failed =>
      obtain ⟨hreceive, hcalls⟩ := Traced.receive_eq arrived
      exact ⟨.take hreceive failed, _, .unanswered _, hcalls⟩
  | fault arrived taken failed =>
      obtain ⟨hreceive, hcalls⟩ := Traced.receive_eq arrived
      exact ⟨.fault hreceive taken failed, _, .unanswered _, hcalls⟩
  | combine arrived taken unfaulted failed =>
      obtain ⟨hreceive, hcalls⟩ := Traced.receive_eq arrived
      exact ⟨.combine hreceive taken unfaulted failed, _, .unanswered _, hcalls⟩
  | @send m _ _ _ _ _ command e arrived taken unfaulted combined failed =>
      obtain ⟨hreceive, hbetween⟩ := Traced.receive_eq arrived
      obtain ⟨hsend, hlast⟩ := Traced.send_eq failed
      refine ⟨.send hreceive taken unfaulted combined hsend, _, .unsent m command.encode e, ?_⟩
      rw [hlast, hbetween]
      simp

theorem Course.untraced {xs : List (Exchange ρ)} {run : Run (Traced σ) ρ}
    (h : Course c t user xs run) : Course c t.link user xs (run.mapLink Traced.link) := by
  induction h with
  | broken last => exact .broken last.untraced.1
  | finished last final => exact .finished last.untraced.1 final
  | again first ongoing _ ih => exact .again first.untraced.1 ongoing ih

/-- A run receives and sends in turn. Only a run that fails makes any calls after its
exchanges. -/
theorem Course.calls_eq {xs : List (Exchange ρ)} {run : Run (Traced σ) ρ}
    (h : Course c t user xs run) : ∃ ending,
      run.link.calls = t.calls ++ xs.flatMap (Exchange.calls c.receiver.timeout) ++ ending ∧
        (run.result = .ok () → ending = []) ∧
        (run.result ≠ .ok () → BrokenCalls c.receiver.timeout ending) := by
  induction h with
  | broken last =>
      obtain ⟨-, ending, hending, hcalls⟩ := last.untraced
      refine ⟨ending, by simpa using hcalls, ?_, fun _ => hending⟩
      intro hok
      cases last <;> cases hok
  | finished last _ => exact ⟨[], by simpa using last.untraced.2, by simp, by simp⟩
  | @again c _ _ _ x receiver xs run first _ _ ih =>
      obtain ⟨ending, hcalls, hok, herror⟩ := ih
      have htimeout : (c.afterSend receiver).receiver.timeout = c.receiver.timeout :=
        Receiver.timeout_of_take first.taken
      rw [htimeout] at hcalls herror
      refine ⟨ending, ?_, hok, herror⟩
      rw [Run.after, hcalls, first.untraced.2]
      simp

theorem cycles_traced (c : ControlLoop ρ) (t : Traced σ) (user : ρ) :
    (c.cycles t user).mapLink Traced.link = c.cycles t.link user := by
  obtain ⟨xs, hxs⟩ := exists_course c t user
  exact hxs.untraced.cycles_eq.symm

/-- A run has the same course on the traced link and on the link inside. -/
theorem exists_course_traced (c : ControlLoop ρ) (link : σ) (user : ρ) :
    ∃ xs, Course c (Traced.start link) user xs (c.cycles (Traced.start link) user) ∧
      Course c link user xs (c.cycles link user) := by
  obtain ⟨xs, hxs⟩ := exists_course c (Traced.start link) user
  have hran : _ = c.cycles link user := cycles_traced c (Traced.start link) user
  refine ⟨xs, hxs, ?_⟩
  rw [← hran]
  exact hxs.untraced

theorem run_traced (c : ControlLoop ρ) (t : Traced σ) (user : ρ) :
    (c.run t user).mapLink Traced.link = c.run t.link user := by
  cases hphase : c.phase.isTerminal with
  | true => rw [run_of_terminal hphase, run_of_terminal hphase]; rfl
  | false =>
      rw [run_eq hphase, run_eq hphase, ← cycles_traced c t user]
      rfl

end ControlLoop

def Reading.mapLink {σ τ ρ : Type} (f : σ → τ) (r : Reading σ ρ) : Reading τ ρ :=
  ⟨r.result, f r.link, r.user, r.seen, r.count⟩

section

variable {σ ρ : Type} [Link σ]

/-- A receiver makes one call, and does not mind that it is recorded. -/
theorem Receiver.next_untraced {r : Receiver} {t t' : Traced σ}
    {answer : Except Failure (RobotState × Duration × Receiver)} (h : r.next t = (answer, t')) :
    r.next t.link = (answer, t'.link) ∧ ∃ heard,
      Link.receive .realtime r.timeout t.link = (heard, t'.link) ∧
        t'.calls = t.calls ++ [.receive .realtime r.timeout heard] := by
  cases hreceive : Link.receive .realtime r.timeout t with
  | mk heard between =>
  obtain ⟨hinside, hcalls⟩ := Traced.receive_eq hreceive
  cases heard with
  | error e =>
      rw [next_of_receive_error hreceive] at h
      cases h
      exact ⟨next_of_receive_error hinside, _, hinside, hcalls⟩
  | ok m =>
      rw [next_of_receive_ok hreceive] at h
      cases h
      exact ⟨next_of_receive_ok hinside, _, hinside, hcalls⟩

/-- Tracing a link changes nothing of a reading, and all that a reading asks of its link is to
receive on the realtime channel. -/
theorem Reading.run_traced (goesOn : Predicate ρ) (r : Receiver) (t : Traced σ) (user : ρ)
    (count : UInt64) :
    (run goesOn r t user count).mapLink Traced.link = run goesOn r t.link user count ∧
      ∃ heard : List (Except LinkError Bytes), (run goesOn r t user count).link.calls =
        t.calls ++ heard.map (LinkCall.receive .realtime r.timeout) := by
  induction r, t, user, count using @Reading.run.induct (Traced σ) ρ _ goesOn with
  | case1 r t user count e t' hnext =>
      obtain ⟨hinside, heard, -, hcalls⟩ := Receiver.next_untraced hnext
      rw [run_of_error hnext, run_of_error hinside]
      exact ⟨rfl, [heard], hcalls⟩
  | case2 r t user count s period r' t' hnext user' hyes ih =>
      obtain ⟨hinside, heard, -, hcalls⟩ := Receiver.next_untraced hnext
      obtain ⟨m, htake⟩ := Receiver.exists_take_of_next hnext
      obtain ⟨hrest, more, hmore⟩ := ih
      rw [run_of_ok hnext, run_of_ok hinside, hyes]
      dsimp only
      rw [← hrest]
      refine ⟨rfl, heard :: more, ?_⟩
      rw [hmore, hcalls, Receiver.timeout_of_take htake, List.append_assoc]
      rfl
  | case3 r t user count s period r' t' hnext user' hno =>
      obtain ⟨hinside, heard, -, hcalls⟩ := Receiver.next_untraced hnext
      rw [run_of_ok hnext, run_of_ok hinside, hno]
      exact ⟨rfl, [heard], hcalls⟩

end

end ArmSession
