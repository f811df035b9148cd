import ArmSession.Proofs.StateStream
import ArmSession.Proofs.Traffic

/-!
# No reading ahead

A loop, whether it reads or controls, meets the entries of the realtime queue one at a time and
takes none that it does not need. So whatever comes behind the entries that it takes changes
nothing and is left as it is. A loop that runs dry, as it asks an open link with an empty queue,
cannot tell this from an entry that says timeout. What stands on the service queue does not matter
to either loop, and neither of them touches it.
-/

namespace ArmSession

theorem take_succ_eq_cons {α : Type} {n : Nat} {a : α} {as bs : List α}
    (h : bs.take (n + 1) = (a :: as).take (n + 1)) : ∃ rest, bs = a :: rest ∧
      rest.take n = as.take n := by
  cases bs with
  | nil => cases h
  | cons b bs =>
      rw [List.take_succ_cons, List.take_succ_cons] at h
      obtain ⟨rfl, hrest⟩ := List.cons.inj h
      exact ⟨bs, rfl, hrest⟩

namespace ScriptedLink

/-- The link with more behind its realtime queue, and with another service queue. -/
def continued (l : ScriptedLink) (more service : List ScriptedReply) : ScriptedLink :=
  { l with realtime := l.realtime ++ more, service }

def isDry (l : ScriptedLink) : Bool := !l.closed && l.realtime.isEmpty

/-- Some of the calls, made one after the other from this link on, asks a dry link for a message. -/
def runsDry (l : ScriptedLink) : List LinkCall → Bool
  | [] => false
  | .send c m _ :: calls => runsDry (Link.send c m l).2 calls
  | .receive c timeout _ :: calls =>
    (c = .realtime && l.isDry) || runsDry (Link.receive c timeout l).2 calls

/-- The entry that a dry link answers without. -/
def owed (dry : Bool) : List ScriptedReply := if dry then [.timeout] else []

variable {l l' : ScriptedLink}

theorem receive_continued {timeout : Duration} {answer : Except LinkError Bytes}
    (h : Link.receive .realtime timeout l = (answer, l')) (more service : List ScriptedReply) :
    Link.receive .realtime timeout (l.continued (owed l.isDry ++ more) service) =
      (answer, l'.continued more service) := by
  obtain ⟨_, realtime, sent, budget, closed, port⟩ := l
  cases closed with
  | true => cases h; rfl
  | false =>
      cases realtime with
      | nil => cases h; rfl
      | cons reply rest => cases reply <;> cases h <;> rfl

theorem runsDry_receive (l : ScriptedLink) (timeout : Duration) (answer : Except LinkError Bytes) :
    l.runsDry [.receive .realtime timeout answer] = l.isDry := by
  simp [runsDry]

theorem isDry_of_receive_ok {timeout : Duration} {m : Bytes}
    (h : Link.receive .realtime timeout l = (.ok m, l')) : l.isDry = false := by
  rw [isDry, realtime_of_receive h]
  exact Bool.and_false _

theorem send_continued {c : Channel} {m : Bytes} {answer : Except LinkError Unit}
    (h : Link.send c m l = (answer, l')) (more service : List ScriptedReply) :
    Link.send c m (l.continued more service) = (answer, l'.continued more service) := by
  obtain ⟨_, realtime, sent, budget, closed, port⟩ := l
  cases closed with
  | true => cases h; rfl
  | false =>
      cases budget with
      | none => cases h; rfl
      | some left => cases left <;> cases h <;> rfl

end ScriptedLink

open ScriptedLink (owed)

namespace ControlLoop

variable {ρ : Type} {c : ControlLoop ρ} {user : ρ} {x : Exchange ρ} {receiver : Receiver}

section Traced

variable {t t' : Traced ScriptedLink} {run : Run (Traced ScriptedLink) ρ}

theorem Exchanges.continued (h : Exchanges c t user x receiver t')
    (more service : List ScriptedReply) :
    Exchanges c (t.link.continued more service) user x receiver
      (t'.link.continued more service) := by
  obtain ⟨between, hreceive, hsend⟩ := h.untraced.1.carried
  have hcontinued := ScriptedLink.receive_continued hreceive more service
  rw [ScriptedLink.isDry_of_receive_ok hreceive] at hcontinued
  exact ⟨⟨_, hcontinued, ScriptedLink.send_continued hsend more service⟩, h.taken, h.unfaulted,
    h.asked, h.combined⟩

/-- An exchange asks for nothing that is not there. -/
theorem Exchanges.runsDry (h : Exchanges c t user x receiver t') (calls : List LinkCall) :
    t.link.runsDry (x.calls c.receiver.timeout ++ calls) = t'.link.runsDry calls := by
  obtain ⟨between, hreceive, hsend⟩ := h.untraced.1.carried
  simp only [Exchange.calls, List.cons_append, List.nil_append, ScriptedLink.runsDry, hreceive,
    hsend, ScriptedLink.isDry_of_receive_ok hreceive, Bool.and_false, Bool.false_or]

theorem Breaks.continued (h : Breaks c t user run) : ∃ ending,
    run.link.calls = t.calls ++ ending ∧ ∀ more service,
      Breaks c (t.link.continued (owed (t.link.runsDry ending) ++ more) service) user
        (run.mapLink fun t => t.link.continued more service) := by
  cases h with
  | receive failed =>
      obtain ⟨hreceive, hcalls⟩ := Traced.receive_eq failed
      refine ⟨_, hcalls, fun more service => ?_⟩
      rw [ScriptedLink.runsDry_receive]
      exact .receive (ScriptedLink.receive_continued hreceive more service)
  | take arrived failed =>
      obtain ⟨hreceive, hcalls⟩ := Traced.receive_eq arrived
      refine ⟨_, hcalls, fun more service => ?_⟩
      rw [ScriptedLink.runsDry_receive]
      exact .take (ScriptedLink.receive_continued hreceive more service) failed
  | fault arrived taken failed =>
      obtain ⟨hreceive, hcalls⟩ := Traced.receive_eq arrived
      refine ⟨_, hcalls, fun more service => ?_⟩
      rw [ScriptedLink.runsDry_receive]
      exact .fault (ScriptedLink.receive_continued hreceive more service) taken failed
  | combine arrived taken unfaulted failed =>
      obtain ⟨hreceive, hcalls⟩ := Traced.receive_eq arrived
      refine ⟨_, hcalls, fun more service => ?_⟩
      rw [ScriptedLink.runsDry_receive]
      exact .combine (ScriptedLink.receive_continued hreceive more service) taken unfaulted failed
  | @send m between link' _ _ _ command e arrived taken unfaulted combined failed =>
      obtain ⟨hreceive, hcalls⟩ := Traced.receive_eq arrived
      obtain ⟨hsend, hlast⟩ := Traced.send_eq failed
      rw [hcalls, List.append_assoc] at hlast
      refine ⟨_, hlast, fun more service => ?_⟩
      have hdry : t.link.runsDry ([.receive .realtime c.receiver.timeout (.ok m)] ++
          [.send .realtime command.encode (.error e)]) = t.link.isDry := by
        simp [ScriptedLink.runsDry]
      rw [hdry]
      exact .send (ScriptedLink.receive_continued hreceive more service) taken unfaulted combined
        (ScriptedLink.send_continued hsend more service)

theorem Course.continued {xs : List (Exchange ρ)} (h : Course c t user xs run) : ∃ calls,
    run.link.calls = t.calls ++ calls ∧ ∀ more service,
      Course c (t.link.continued (owed (t.link.runsDry calls) ++ more) service) user xs
        (run.mapLink fun t => t.link.continued more service) := by
  induction h with
  | broken last =>
      obtain ⟨ending, hcalls, hbreaks⟩ := last.continued
      exact ⟨ending, hcalls, fun more service => .broken (hbreaks more service)⟩
  | @finished c t t' user x receiver last final =>
      refine ⟨_, last.untraced.2, fun more service => ?_⟩
      have hdry := last.runsDry []
      rw [List.append_nil] at hdry
      rw [hdry]
      exact .finished (last.continued more service) final
  | @again c t t' user x receiver xs run first ongoing rest ih =>
      obtain ⟨calls, hcalls, hcourse⟩ := ih
      refine ⟨x.calls c.receiver.timeout ++ calls, ?_, fun more service => ?_⟩
      · rw [Run.after, hcalls, first.untraced.2, List.append_assoc]
      · rw [first.runsDry]
        exact .again (first.continued _ service) ongoing (hcourse more service)

end Traced

theorem run_continued (c : ControlLoop ρ) (link : ScriptedLink) (user : ρ)
    (more service : List ScriptedReply) :
    c.run (link.continued (owed (link.runsDry (c.run (Traced.start link) user).link.calls) ++ more)
        service) user =
      (c.run link user).mapLink (·.continued more service) := by
  have hran : (c.run (Traced.start link) user).mapLink Traced.link = c.run link user :=
    c.run_traced (Traced.start link) user
  rw [← hran]
  cases hphase : c.phase.isTerminal with
  | true =>
      rw [run_of_terminal hphase, run_of_terminal hphase]
      rfl
  | false =>
      obtain ⟨xs, hxs⟩ := exists_course c (Traced.start link) user
      obtain ⟨calls, hcalls, hcourse⟩ := hxs.continued
      have hcycles : c.cycles (link.continued (owed (link.runsDry calls) ++ more) service) user =
          _ := (hcourse more service).cycles_eq
      rw [run_eq hphase, run_eq hphase]
      dsimp only
      rw [show (c.cycles (Traced.start link) user).link.calls = calls from hcalls, hcycles]
      rfl

variable {link link' : ScriptedLink} {run : Run ScriptedLink ρ}

/-- An exchange takes the first entry, and nothing behind it matters. -/
theorem Exchanges.elsewhere {rest queue : List ScriptedReply}
    (h : Exchanges c link user x receiver link') (hqueue : queue = .message x.message :: rest)
    (service : List ScriptedReply) :
    Exchanges c { link with realtime := queue, service } user x receiver
      { link' with realtime := rest, service } := by
  obtain ⟨hfront, hbudget, _, -, rfl⟩ := h.scripted
  obtain ⟨hopen, -⟩ := ScriptedLink.front?_eq_some_iff.1 hfront
  rw [hqueue]
  exact exchanges_of_front? (ScriptedLink.front?_eq_some_iff.2 ⟨hopen, rest, rfl⟩) hbudget h.taken
    h.unfaulted h.asked h.combined

theorem Breaks.not_exchanges (h : Breaks c link user run) :
    ¬Exchanges c link user x receiver link' := by
  intro hx
  have hcycle := (cycle_of_exchanges hx).symm.trans (cycle_of_breaks h)
  split at hcycle
  · cases hcycle
    cases h
  · cases hcycle

theorem Course.first {xs : List (Exchange ρ)} (h : Course c link user (x :: xs) run) :
    ∃ receiver link', Exchanges c link user x receiver link' := by
  cases h with
  | finished last _ => exact ⟨_, _, last⟩
  | again first _ _ => exact ⟨_, _, first⟩

/-- The first `n` commands are the same on every link that agrees in the first `n` entries. -/
theorem Course.take_commands {xs : List (Exchange ρ)} (h : Course c link user xs run) {n : Nat}
    {queue : List ScriptedReply} (hqueue : queue.take n = link.realtime.take n)
    (service : List ScriptedReply) :
    (c.cycles { link with realtime := queue, service } user).commands.take n =
      run.commands.take n := by
  induction h generalizing n queue with
  | @broken c link user run last =>
      cases n with
      | zero => rfl
      | succ n =>
          -- The other link has the same first entry, so no exchange is made on it either.
          obtain ⟨ys, hys⟩ := exists_course c { link with realtime := queue, service } user
          cases ys with
          | nil => rw [hys.commands_eq, last.commands_eq]; rfl
          | cons y ys =>
              obtain ⟨receiver, link', hy⟩ := hys.first
              obtain ⟨-, -, rest, hrest, -⟩ := hy.scripted
              rw [show queue = .message y.message :: rest from hrest] at hqueue
              obtain ⟨rest', hrest', -⟩ := take_succ_eq_cons hqueue.symm
              exact absurd (hy.elsewhere hrest' link.service) last.not_exchanges
  | @finished c link link' user x receiver last final =>
      cases n with
      | zero => rfl
      | succ n =>
          obtain ⟨-, -, rest, hrest, -⟩ := last.scripted
          rw [hrest] at hqueue
          obtain ⟨rest', hrest', -⟩ := take_succ_eq_cons hqueue
          have hcourse := Course.finished (last.elsewhere hrest' service) final
          rw [hcourse.cycles_eq, hcourse.commands_eq, (Course.finished last final).commands_eq]
  | @again c link link' user x receiver xs run first ongoing rest ih =>
      cases n with
      | zero => rfl
      | succ n =>
          obtain ⟨-, -, left, hleft, hlink'⟩ := first.scripted
          rw [hleft] at hqueue
          obtain ⟨left', hleft', htake⟩ := take_succ_eq_cons hqueue
          have hcycle := cycle_of_exchanges (first.elsewhere hleft' service)
          rw [if_neg (by simp [ongoing])] at hcycle
          have hagree : left'.take n = link'.realtime.take n := by rw [htake, hlink']
          have hrest := ih hagree
          rw [cycles_of_again hcycle, Run.commands, Run.commands, Run.after, Run.after,
            List.filterMap_append, List.filterMap_append, first.filterMap_sent,
            List.singleton_append, List.singleton_append, List.take_succ_cons, List.take_succ_cons]
          exact congrArg (x.command :: ·) hrest

theorem take_commands_run (c : ControlLoop ρ) (link : ScriptedLink) (user : ρ) {n : Nat}
    {queue : List ScriptedReply} (hqueue : queue.take n = link.realtime.take n)
    (service : List ScriptedReply) :
    (c.run { link with realtime := queue, service } user).commands.take n =
      (c.run link user).commands.take n := by
  cases hphase : c.phase.isTerminal with
  | true =>
      rw [run_of_terminal hphase, run_of_terminal hphase]
      rfl
  | false =>
      obtain ⟨xs, hxs⟩ := exists_course c link user
      rw [commands_run hphase, commands_run hphase]
      exact hxs.take_commands hqueue service

/-- Runs that send the same first commands on links with the same log leave the same front in it. -/
theorem take_sent_run {elsewhere : ScriptedLink} {n : Nat}
    (hcommands : (c.run elsewhere user).commands.take n = (c.run link user).commands.take n)
    (hlog : elsewhere.sent = link.sent) :
    (c.run elsewhere user).link.sent.take (link.sent.length + n) =
      (c.run link user).link.sent.take (link.sent.length + n) := by
  cases hphase : c.phase.isTerminal with
  | true =>
      rw [run_of_terminal hphase, run_of_terminal hphase]
      exact congrArg (List.take _) hlog
  | false =>
      rw [sent_run hphase, sent_run hphase, hlog, List.take_length_add_append,
        List.take_length_add_append, ← List.map_take, ← List.map_take, hcommands]

end ControlLoop

section

variable {τ : Type} {r : Receiver} {l l' : ScriptedLink} {t t' : Traced ScriptedLink}

theorem Receiver.next_continued {heard : Except LinkError Bytes}
    {answer : Except Failure (RobotState × Duration × Receiver)}
    (hreceive : Link.receive .realtime r.timeout l = (heard, l')) (h : r.next l = (answer, l'))
    (more service : List ScriptedReply) :
    r.next (l.continued (owed l.isDry ++ more) service) = (answer, l'.continued more service) := by
  have hcontinued := ScriptedLink.receive_continued hreceive more service
  cases heard with
  | error e =>
      rw [next_of_receive_error hreceive] at h
      cases h
      exact next_of_receive_error hcontinued
  | ok m =>
      rw [next_of_receive_ok hreceive] at h
      cases h
      exact next_of_receive_ok hcontinued

theorem Reading.run_continued (p : Predicate τ) (r : Receiver) (t : Traced ScriptedLink) (u : τ)
    (count : UInt64) : ∃ calls, (run p r t u count).link.calls = t.calls ++ calls ∧
      ∀ more service,
        run p r (t.link.continued (owed (t.link.runsDry calls) ++ more) service) u count =
          (run p r t u count).mapLink fun t => t.link.continued more service := by
  induction r, t, u, count using @Reading.run.induct (Traced ScriptedLink) τ _ p with
  | case1 r t u count e t' hnext =>
      obtain ⟨hinside, heard, hreceive, hcalls⟩ := Receiver.next_untraced hnext
      rw [run_of_error hnext]
      refine ⟨_, hcalls, fun more service => ?_⟩
      rw [ScriptedLink.runsDry_receive,
        run_of_error (Receiver.next_continued hreceive hinside more service)]
      rfl
  | case2 r t u count s period r' t' hnext u' hyes ih =>
      obtain ⟨hinside, heard, hreceive, hcalls⟩ := Receiver.next_untraced hnext
      obtain ⟨calls, hrest, hcontinued⟩ := ih
      -- A state came, so what is owed is owed by the rest of the read alone.
      have hwet : t.link.isDry = false := by
        obtain ⟨m, hqueue, -⟩ := take_of_next hinside
        rw [ScriptedLink.isDry, hqueue]
        exact Bool.and_false _
      rw [run_of_ok hnext, hyes]
      dsimp only
      refine ⟨.receive .realtime r.timeout heard :: calls, ?_, fun more service => ?_⟩
      · rw [hrest, hcalls, List.append_assoc]
        rfl
      · have hdry : t.link.runsDry (.receive .realtime r.timeout heard :: calls) =
            t'.link.runsDry calls := by
          simp only [ScriptedLink.runsDry, hwet, hreceive, Bool.and_false, Bool.false_or]
        have hnext' := Receiver.next_continued hreceive hinside
          (owed (t'.link.runsDry calls) ++ more) service
        rw [hwet, show owed false = [] from rfl, List.nil_append] at hnext'
        rw [hdry, run_of_ok hnext', hyes]
        dsimp only
        rw [hcontinued]
        rfl
  | case3 r t u count s period r' t' hnext u' hno =>
      obtain ⟨hinside, heard, hreceive, hcalls⟩ := Receiver.next_untraced hnext
      rw [run_of_ok hnext, hno]
      refine ⟨_, hcalls, fun more service => ?_⟩
      rw [ScriptedLink.runsDry_receive,
        run_of_ok (Receiver.next_continued hreceive hinside more service), hno]
      rfl

theorem readLoop_continued (timeout : Duration) (p : Predicate τ) (link : ScriptedLink) (u : τ)
    (more service : List ScriptedReply) :
    readLoop timeout p (link.continued
        (owed (link.runsDry (readLoop timeout p (Traced.start link) u).link.calls) ++ more)
        service) u =
      (readLoop timeout p link u).mapLink (·.continued more service) := by
  obtain ⟨calls, hcalls, hcontinued⟩ :=
    Reading.run_continued p (.new timeout) (Traced.start link) u 0
  obtain ⟨hran, -⟩ := Reading.run_traced p (.new timeout) (Traced.start link) u 0
  have hsame : (readLoop timeout p (Traced.start link) u).link.calls = calls := hcalls
  have hread : (readLoop timeout p (Traced.start link) u).mapLink Traced.link =
      readLoop timeout p link u := hran
  rw [hsame, ← hread]
  exact hcontinued more service

end

theorem ScriptedLink.service_of_receive {l l' : ScriptedLink} {timeout : Duration}
    {answer : Except LinkError Bytes} (h : receive .realtime timeout l = (answer, l')) :
    l'.service = l.service := by
  cases hfront : l.front? .realtime with
  | some m =>
      cases (receive_of_front? hfront).symm.trans h
      rfl
  | none =>
      obtain ⟨e, taken, rest, closed, he, -⟩ := receive_of_front?_eq_none timeout hfront
      cases he.symm.trans h
      rfl

theorem ScriptedLink.service_of_send {l l' : ScriptedLink} {c : Channel} {m : Bytes}
    {answer : Except LinkError Unit} (h : send c m l = (answer, l')) : l'.service = l.service := by
  cases answer with
  | ok _ =>
      obtain ⟨-, -, rfl⟩ := send_eq_ok_iff.1 h
      rfl
  | error e => rw [(send_eq_error h).1]

/-- Calls on the realtime channel leave the service queue as it is. -/
theorem service_of_realtimeTraffic {link link' : ScriptedLink} (h : RealtimeTraffic link link') :
    link'.service = link.service := by
  obtain ⟨steps, htraffic, hrealtime⟩ := h
  induction htraffic with
  | none => rfl
  | @more s steps link' made rest ih =>
      obtain ⟨hchannel, hmore⟩ := List.forall_mem_cons.1 hrealtime
      refine (ih hmore).trans ?_
      obtain ⟨before, call, after⟩ := s
      cases call with
      | send c m answer => exact ScriptedLink.service_of_send made
      | receive c timeout answer =>
          obtain rfl : c = .realtime := hchannel
          exact ScriptedLink.service_of_receive made

/-- How a loop depends on its link. `loop` tells what it comes to on each link, `onLink` replaces
the link in this, and `dry` says whether it asks `link` for more than there is. -/
structure TakesInTurn {α : Type} (loop : ScriptedLink → α)
    (onLink : (ScriptedLink → ScriptedLink) → α → α) (dry : Bool) (link : ScriptedLink) : Prop where
  /-- What stands behind the entries that it takes is left there and changes nothing else. -/
  enough : dry = false → ∀ more service,
    loop (link.continued more service) = onLink (·.continued more service) (loop link)
  /-- Where the queue has ended there might as well be an entry that says timeout. -/
  short : dry = true → ∀ more service,
    loop (link.continued (.timeout :: more) service) = onLink (·.continued more service) (loop link)

theorem takesInTurn_of_owed {α : Type} {loop : ScriptedLink → α}
    {onLink : (ScriptedLink → ScriptedLink) → α → α} {dry : Bool} {link : ScriptedLink}
    (h : ∀ more service, loop (link.continued (owed dry ++ more) service) =
      onLink (·.continued more service) (loop link)) : TakesInTurn loop onLink dry link := by
  constructor
  · rintro rfl more service
    exact h more service
  · rintro rfl more service
    exact h more service

/-- Neither loop reads ahead, neither depends on the service queue or touches it, and the first `n`
commands of a run depend on the first `n` entries of the realtime queue alone. -/
theorem loops_do_not_read_ahead {ρ τ : Type} (link : ScriptedLink) (c : ControlLoop ρ) (user : ρ)
    (timeout : Duration) (p : Predicate τ) (u : τ) :
    TakesInTurn (c.run · user) Run.mapLink
        (link.runsDry (c.run (Traced.start link) user).link.calls) link ∧
      TakesInTurn (readLoop timeout p · u) Reading.mapLink
        (link.runsDry (readLoop timeout p (Traced.start link) u).link.calls) link ∧
      (c.run link user).link.service = link.service ∧
      (readLoop timeout p link u).link.service = link.service ∧
      ∀ n queue service, queue.take n = link.realtime.take n →
        let elsewhere : ScriptedLink := { link with realtime := queue, service }
        (c.run elsewhere user).commands.take n = (c.run link user).commands.take n ∧
          (c.run elsewhere user).link.sent.take (link.sent.length + n) =
            (c.run link user).link.sent.take (link.sent.length + n) := by
  refine ⟨takesInTurn_of_owed (c.run_continued link user),
    takesInTurn_of_owed (readLoop_continued timeout p link u),
    service_of_realtimeTraffic (c.traffic_run link user),
    service_of_realtimeTraffic (Reading.traffic_run p _ link u 0), ?_⟩
  intro n queue service hqueue elsewhere
  have hcommands := c.take_commands_run link user hqueue service
  exact ⟨hcommands, c.take_sent_run hcommands rfl⟩

end ArmSession
