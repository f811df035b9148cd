import ArmSession.Session
import ArmSession.Proofs.Readings

/-!
# Reading states one at a time

Reading one state again and again takes the same messages off a link as one read that goes on as
long. The two differ in what they remember: a read shows no state that does not come after the one
before it, and a read of one state accepts any. So a read that ends well can always be replaced by
reads of one state, and these by a read when the ids of their states are strictly increasing.
-/

namespace ArmSession

/-- The states come off the link one after the other, each in a message of its own. -/
inductive Fetches {σ : Type} [Link σ] (timeout : Duration) : σ → List RobotState → σ → Prop
  | none (link : σ) : Fetches timeout link [] link
  | more {link between link' : σ} {m : Bytes} {s : RobotState} {states : List RobotState}
      (arrived : Link.receive .realtime timeout link = (.ok m, between))
      (decoded : RobotState.decode m = .ok s) (rest : Fetches timeout between states link') :
      Fetches timeout link (s :: states) link'

namespace Receiver

variable {σ : Type} [Link σ] {r : Receiver} {link link' : σ} {m : Bytes} {s : RobotState}

/-- A receiver goes on with a state that comes after the last one, if there was one. -/
theorem exists_next_of_receive (arrived : Link.receive .realtime r.timeout link = (.ok m, link'))
    (decoded : RobotState.decode m = .ok s) (later : ∀ id, r.lastId = some id → id < s.messageId) :
    ∃ period r', r.next link = (.ok (s, period, r'), link') ∧ r'.timeout = r.timeout ∧
      r'.lastId = some s.messageId := by
  have hfirst : r.precededBy? s = none :=
    precededBy?_eq_none_iff.2 fun entry hentry => later entry.1 (by rw [lastId, hentry]; rfl)
  have haccept : r.accept s = .ok (r.period s, { r with last := some (s.messageId, s.time) }) := by
    rw [accept, hfirst]
  have hnext := next_of_receive_ok arrived
  rw [take_eq_ok_iff.2 ⟨decoded, haccept⟩] at hnext
  exact ⟨_, _, hnext, rfl, rfl⟩

/-- There is nothing to take from a link that is closed or has an empty queue. -/
theorem next_of_idle {link : ScriptedLink} (h : link.closed = true ∨ link.realtime = [])
    (r : Receiver) : ∃ e, r.next link = (.error e, link) := by
  cases hclosed : link.closed with
  | true =>
      refine ⟨.link .closed, next_of_receive_error ?_⟩
      simp [Link.receive, ScriptedLink.receive, hclosed]
  | false =>
      have hempty : link.queue .realtime = [] := h.resolve_left (by simp [hclosed])
      refine ⟨.link (.timeout r.timeout), next_of_receive_error ?_⟩
      simp [Link.receive, ScriptedLink.receive, hclosed, hempty]

theorem receive_of_next {r' : Receiver} {period : Duration}
    (h : r.next link = (.ok (s, period, r'), link')) :
    (∃ m, Link.receive .realtime r.timeout link = (.ok m, link') ∧ RobotState.decode m = .ok s) ∧
      (∀ id, r.lastId = some id → id < s.messageId) ∧ r'.timeout = r.timeout ∧
        r'.lastId = some s.messageId := by
  obtain ⟨m, htake⟩ := exists_take_of_next h
  have hfirst := precededBy?_eq_none_iff.1 (accept_eq_ok (take_eq_ok_iff.1 htake).2).1
  refine ⟨?_, ?_, timeout_of_take htake, by rw [lastId, last_of_take htake]; rfl⟩
  · cases hreceive : Link.receive .realtime r.timeout link with
    | mk answer between =>
    cases answer with
    | error e =>
        rw [next_of_receive_error hreceive] at h
        cases h
    | ok heard =>
        rw [next_of_receive_ok hreceive] at h
        obtain ⟨hheard, rfl⟩ := Prod.mk.inj h
        exact ⟨heard, rfl, (take_eq_ok_iff.1 hheard).1⟩
  · intro id hid
    obtain ⟨entry, hentry, rfl⟩ := Option.map_eq_some_iff.1 hid
    exact hfirst entry hentry

end Receiver

theorem pairwise_ids_cons {last : Option UInt64} {id : UInt64} {ids : List UInt64} :
    (last.toList ++ id :: ids).Pairwise (· < ·) ↔
      (∀ i, last = some i → i < id) ∧ (id :: ids).Pairwise (· < ·) := by
  cases last with
  | none => simp
  | some i =>
      rw [Option.toList_some, List.singleton_append, List.pairwise_cons]
      refine and_congr_left fun hids => ⟨fun h j hj => ?_, fun h j hj => ?_⟩
      · cases hj
        exact h id List.mem_cons_self
      · rcases List.mem_cons.1 hj with rfl | hmem
        · exact h i rfl
        · exact UInt64.lt_trans (h i rfl) ((List.pairwise_cons.1 hids).1 j hmem)

namespace Predicate

variable {τ : Type}

/-- Whatever it is shown, the predicate says yes `n - 1` times and no to the `n`-th state. -/
def Wants (p : Predicate τ) (t : τ) (n : Nat) : Prop :=
  ∀ states : List RobotState, states.length = n →
    p.answers t states = List.replicate (n - 1) true ++ [false]

theorem answers_append (p : Predicate τ) (t : τ) (states more : List RobotState) :
    p.answers t (states ++ more) = p.answers t states ++ p.answers (p.after t states) more := by
  induction states generalizing t with
  | nil => rfl
  | cons s states ih => exact congrArg ((p s t).1 :: ·) (ih (p s t).2)

theorem Wants.length_eq {p : Predicate τ} {t : τ} {n k : Nat} {states : List RobotState}
    (h : p.Wants t n) (hn : 1 ≤ n)
    (hanswers : p.answers t states = List.replicate k true ++ [false]) : states.length = n := by
  let longer := states ++ List.replicate n RobotState.initial
  have hfirst : ∀ (m : Nat) (more : List Bool),
      (List.replicate m true ++ [false] ++ more).takeWhile id = List.replicate m true := by
    intro m more
    rw [List.append_assoc, List.takeWhile_append_of_pos (by simp)]
    simp
  have hshort : (longer.take n).length = n := by
    simp [longer]
  have hyes : List.replicate k true = List.replicate (n - 1) true := by
    have hlonger := p.answers_append t states (List.replicate n RobotState.initial)
    have hcut := p.answers_append t (longer.take n) (longer.drop n)
    rw [List.take_append_drop] at hcut
    rw [hanswers] at hlonger
    rw [h _ hshort] at hcut
    rw [← hfirst k, ← hlonger, show states ++ _ = longer from rfl, hcut, hfirst]
  have hk : k = n - 1 := by simpa using congrArg List.length hyes
  have hlength := p.length_answers t states
  rw [hanswers, List.length_append, List.length_replicate] at hlength
  simp only [List.length_singleton] at hlength
  omega

def countdown : Predicate Nat := fun _ left => (left ≠ 0, left - 1)

theorem wants_countdown (n : Nat) : countdown.Wants n (n + 1) := by
  intro states hlength
  induction n generalizing states with
  | zero =>
      obtain ⟨s, rfl⟩ := List.length_eq_one_iff.1 hlength
      rfl
  | succ n ih =>
      cases states with
      | nil => cases hlength
      | cons s states => exact congrArg (true :: ·) (ih states (Nat.succ.inj hlength))

end Predicate

namespace Reading

variable {σ τ : Type} [Link σ] {p : Predicate τ}

/-- A read that ends well has fetched what it shows, in order, and had a no to the last of it. -/
theorem fetches_of_ok (p : Predicate τ) (r : Receiver) (link : σ) (t : τ) (count : UInt64)
    (h : (run p r link t count).result = .ok ()) :
    Fetches r.timeout link (run p r link t count).seen (run p r link t count).link ∧
      (r.lastId.toList ++ (run p r link t count).seen.map (·.messageId)).Pairwise (· < ·) ∧
      ∃ n, p.answers t (run p r link t count).seen = List.replicate n true ++ [false] := by
  induction r, link, t, count using @Reading.run.induct σ τ _ p with
  | case1 r link t count e link' hnext =>
      rw [run_of_error hnext] at h
      cases h
  | case2 r link t count s period r' link' hnext t' hyes ih =>
      obtain ⟨⟨m, harrived, hdecoded⟩, hlater, htimeout, hlast⟩ := Receiver.receive_of_next hnext
      obtain ⟨hanswer, rfl⟩ := Prod.mk.inj hyes
      rw [run_of_yes hnext hanswer] at h ⊢
      obtain ⟨hfetches, hids, n, hanswers⟩ := ih h
      rw [htimeout] at hfetches
      rw [hlast] at hids
      refine ⟨.more harrived hdecoded hfetches, pairwise_ids_cons.2 ⟨hlater, hids⟩, n + 1, ?_⟩
      exact congr (congrArg List.cons hanswer) hanswers
  | case3 r link t count s period r' link' hnext t' hno =>
      obtain ⟨⟨m, harrived, hdecoded⟩, hlater, -⟩ := Receiver.receive_of_next hnext
      have hanswer : (p s t).1 = false := congrArg Prod.fst hno
      rw [run_of_no hnext hanswer]
      refine ⟨.more harrived hdecoded (.none link'), ?_, 0, congrArg (· :: []) hanswer⟩
      exact pairwise_ids_cons.2 ⟨hlater, List.pairwise_singleton ..⟩

/-- What can be fetched in order is read by a predicate that says no to the last of it. -/
theorem ok_of_fetches {timeout : Duration} {link link' : σ} {states : List RobotState}
    (h : Fetches timeout link states link') {r : Receiver} {t : τ} {n : Nat}
    (htimeout : r.timeout = timeout)
    (hids : (r.lastId.toList ++ states.map (·.messageId)).Pairwise (· < ·))
    (hanswers : p.answers t states = List.replicate n true ++ [false]) (count : UInt64) :
    (run p r link t count).result = .ok () ∧ (run p r link t count).seen = states ∧
      (run p r link t count).link = link' := by
  induction h generalizing r t n count with
  | none link => cases n <;> cases hanswers
  | @more link between link' m s states arrived decoded rest ih =>
      rw [← htimeout] at arrived
      obtain ⟨hlater, hrest⟩ := pairwise_ids_cons.1 hids
      obtain ⟨period, r', hnext, htimeout', hlast⟩ :=
        Receiver.exists_next_of_receive arrived decoded hlater
      cases n with
      | zero =>
          -- After the no there are no more answers, and so no more states.
          obtain ⟨hno, hnil⟩ := List.cons.inj hanswers
          have hnothing : states = [] := by
            rw [← List.length_eq_zero_iff, ← p.length_answers (p s t).2 states, hnil]
            rfl
          subst hnothing
          cases rest
          rw [run_of_no hnext hno]
          exact ⟨rfl, rfl, rfl⟩
      | succ n =>
          obtain ⟨hyes, hmore⟩ := List.cons.inj hanswers
          have hids' : (r'.lastId.toList ++ states.map (·.messageId)).Pairwise (· < ·) := by
            rw [hlast]
            exact hrest
          obtain ⟨hok, hseen, hleft⟩ := ih (htimeout'.trans htimeout) hids' hmore (count + 1)
          rw [run_of_yes hnext hyes]
          exact ⟨hok, congrArg (s :: ·) hseen, hleft⟩

end Reading

namespace Session

variable {κ σ τ : Type} [Link σ]

def readsOnce (s : Session κ σ) : Nat → List (Except Failure RobotState) × Session κ σ
  | 0 => ([], s)
  | n + 1 =>
    let once := s.readOnce
    let more := once.session.readsOnce n
    (once.result :: more.1, more.2)

/-- A read of one state is what a new receiver makes of the next message. -/
theorem readOnce_of_next {s : Session κ σ}
    {answer : Except Failure (RobotState × Duration × Receiver)} {link : σ}
    (h : (Receiver.new s.config.cycleTimeout).next s.link = (answer, link)) :
    s.readOnce.result = answer.map Prod.fst ∧ s.readOnce.session = { s with link } := by
  unfold readOnce read readLoop
  cases answer with
  | error e =>
      rw [Reading.run_of_error h]
      exact ⟨rfl, rfl⟩
  | ok accepted =>
      obtain ⟨state, period, r⟩ := accepted
      rw [Reading.run_of_ok h]
      exact ⟨rfl, rfl⟩

theorem readOnce_of_fetch {s : Session κ σ} {m : Bytes} {state : RobotState} {link : σ}
    (arrived : Link.receive .realtime s.config.cycleTimeout s.link = (.ok m, link))
    (decoded : RobotState.decode m = .ok state) :
    s.readOnce.result = .ok state ∧ s.readOnce.session = { s with link } := by
  obtain ⟨period, r, hnext, -⟩ := Receiver.exists_next_of_receive
    (r := .new s.config.cycleTimeout) arrived decoded nofun
  exact readOnce_of_next hnext

theorem fetch_of_readOnce {s : Session κ σ} {state : RobotState}
    (h : s.readOnce.result = .ok state) : ∃ m link,
      Link.receive .realtime s.config.cycleTimeout s.link = (.ok m, link) ∧
        RobotState.decode m = .ok state ∧ s.readOnce.session = { s with link } := by
  cases hnext : (Receiver.new s.config.cycleTimeout).next s.link with
  | mk answer link =>
  obtain ⟨hresult, hsession⟩ := readOnce_of_next hnext
  cases answer with
  | error e =>
      rw [hresult] at h
      cases h
  | ok accepted =>
      obtain ⟨heard, period, r⟩ := accepted
      obtain ⟨⟨m, harrived, hdecoded⟩, -⟩ := Receiver.receive_of_next hnext
      rw [hresult] at h
      cases h
      exact ⟨m, link, harrived, hdecoded, hsession⟩

/-- Reads of one state that all succeed have fetched their states, in whatever order. -/
theorem fetches_of_readsOnce {s s' : Session κ σ} {n : Nat} {states : List RobotState}
    (h : s.readsOnce n = (states.map .ok, s')) : states.length = n ∧
      Fetches s.config.cycleTimeout s.link states s'.link ∧ s' = { s with link := s'.link } := by
  induction n generalizing s states with
  | zero =>
      obtain ⟨hnil, rfl⟩ := Prod.mk.inj h
      cases states with
      | nil => exact ⟨rfl, .none s.link, rfl⟩
      | cons state states => cases hnil
  | succ n ih =>
      obtain ⟨hresults, hsession⟩ := Prod.mk.inj h
      cases states with
      | nil => cases hresults
      | cons state states =>
          obtain ⟨honce, hmore⟩ := List.cons.inj hresults
          obtain ⟨m, link, harrived, hdecoded, hleft⟩ := fetch_of_readOnce honce
          rw [hleft] at hmore hsession
          obtain ⟨hlength, hfetches, hs'⟩ := ih (Prod.ext hmore hsession)
          exact ⟨congrArg (· + 1) hlength, .more harrived hdecoded hfetches, hs'⟩

theorem readsOnce_of_fetches {timeout : Duration} {link link' : σ} {states : List RobotState}
    (h : Fetches timeout link states link') {s : Session κ σ}
    (htimeout : s.config.cycleTimeout = timeout) (hlink : s.link = link) :
    s.readsOnce states.length = (states.map .ok, { s with link := link' }) := by
  induction h generalizing s with
  | none link =>
      rw [← hlink]
      rfl
  | @more link between link' m state states arrived decoded rest ih =>
      rw [← htimeout, ← hlink] at arrived
      obtain ⟨hresult, hleft⟩ := readOnce_of_fetch arrived decoded
      have hmore := ih (s := { s with link := between }) htimeout rfl
      rw [List.length_cons, readsOnce, hresult, hleft, hmore]
      rfl

/-- Only a read that was shown no state could end well without one, and none does. -/
theorem readOnce_ne_noState (s : Session κ σ) : s.readOnce.result ≠ .error .noState := by
  cases hnext : (Receiver.new s.config.cycleTimeout).next s.link with
  | mk answer link =>
  rw [(readOnce_of_next hnext).1]
  cases answer with
  | ok accepted => exact nofun
  | error e =>
      intro h
      obtain rfl : e = .noState := Except.error.inj h
      let r := Receiver.new s.config.cycleTimeout
      cases hreceive : Link.receive .realtime r.timeout s.link with
      | mk heard between =>
      cases heard with
      | error cause =>
          rw [Receiver.next_of_receive_error hreceive] at hnext
          cases hnext
      | ok m =>
          rw [Receiver.next_of_receive_ok hreceive] at hnext
          rcases Receiver.take_eq_error (Prod.mk.inj hnext).1 with ⟨_, -, h⟩ | ⟨_, _, -, -, h⟩
          · cases h
          · cases h

end Session

structure TakesOne {κ : Type} (s : Session κ ScriptedLink)
    (o : Outcome κ ScriptedLink Unit RobotState) : Prop where
  /-- It does not end well without a state. -/
  stated : o.result ≠ .error .noState
  untouched : s.link.closed = true ∨ s.link.realtime = [] → o.session = s
  taken : s.link.closed = false → ∀ entry rest, s.link.realtime = entry :: rest →
    o.session = { s with link := { s.link with
      realtime := rest
      closed := entry = .disconnect } }

namespace Session

variable {κ τ : Type}

theorem takesOne_readOnce (s : Session κ ScriptedLink) : TakesOne s s.readOnce := by
  refine ⟨s.readOnce_ne_noState, ?_, ?_⟩
  · intro hidle
    obtain ⟨e, hnext⟩ := Receiver.next_of_idle hidle (.new s.config.cycleTimeout)
    exact (readOnce_of_next hnext).2
  · intro hopen entry rest hqueue
    cases hnext : (Receiver.new s.config.cycleTimeout).next s.link with
    | mk answer link =>
    rw [(readOnce_of_next hnext).2]
    cases answer with
    | error e =>
        obtain ⟨-, rfl⟩ := Receiver.next_eq_error hopen hnext
        rw [hqueue]
        simp
    | ok accepted =>
        obtain ⟨state, period, r⟩ := accepted
        obtain ⟨m, left, hmessage, rfl, -⟩ := Receiver.next_eq_ok hnext
        cases hqueue.symm.trans hmessage
        rw [show s.link.closed = false from hopen]
        rfl

/-- A read that shows `n` states and ends well is the same as `n` reads of one state that all
succeed with increasing ids: the same states, and the same session afterwards. -/
theorem readsOnce_iff_read {n : Nat} (hn : 1 ≤ n) {p : Predicate τ} {t : τ} (hp : p.Wants t n)
    (s : Session κ ScriptedLink) :
    (∀ states s', ((s.read p t).result = .ok () ∧ (s.read p t).seen = states ∧
        (s.read p t).session = s') ↔
      s.readsOnce n = (states.map .ok, s') ∧ (states.map (·.messageId)).Pairwise (· < ·)) ∧
    TakesOne s s.readOnce := by
  refine ⟨fun states s' => ⟨?_, ?_⟩, s.takesOne_readOnce⟩
  · rintro ⟨hok, rfl, rfl⟩
    obtain ⟨hfetches, hids, k, hanswers⟩ :=
      Reading.fetches_of_ok p (.new s.config.cycleTimeout) s.link t 0 hok
    have hlength : (s.read p t).seen.length = n := hp.length_eq hn hanswers
    refine ⟨?_, hids⟩
    rw [← hlength]
    exact readsOnce_of_fetches hfetches rfl rfl
  · rintro ⟨hreads, hids⟩
    obtain ⟨hlength, hfetches, hs'⟩ := fetches_of_readsOnce hreads
    obtain ⟨hok, hseen, hleft⟩ := Reading.ok_of_fetches hfetches
      (r := .new s.config.cycleTimeout) rfl hids (hp states hlength) 0
    refine ⟨hok, hseen, ?_⟩
    rw [hs', ← hleft]
    rfl

/-- Three reads of one state take the second state twice. A read takes the first two states as well,
and it does not get past the third. -/
theorem readsOnce_iff_read_of_duplicate :
    let at' : UInt64 → RobotState := fun id => { RobotState.initial with messageId := id }
    let left (states : List RobotState) : Session ScriptedConnector ScriptedLink :=
      ⟨.ofLinks [], "robot", .standard, .ofStates states, 2, .always (.ok ())⟩
    let s := left [at' 1, at' 2, at' 2]
    1 ≤ 2 ∧ Predicate.countdown.Wants 1 2 ∧
      s.readsOnce 2 = ([.ok (at' 1), .ok (at' 2)], left [at' 2]) ∧
      (s.read .countdown 1).result = .ok () ∧ (s.read .countdown 1).seen = [at' 1, at' 2] ∧
      (s.read .countdown 1).session = left [at' 2] ∧ TakesOne s s.readOnce ∧
      s.readsOnce 3 = ([.ok (at' 1), .ok (at' 2), .ok (at' 2)], left []) ∧
      (s.read .countdown 2).result ≠ .ok () := by
  intro at' left s
  have hdecode (id : UInt64) : RobotState.decode (at' id).encode = .ok (at' id) :=
    RobotState.decode_encode_of_zero rfl
  have htwo : s.readsOnce 2 = ([at' 1, at' 2].map .ok, left [at' 2]) :=
    readsOnce_of_fetches (.more rfl (hdecode 1) (.more rfl (hdecode 2) (.none _))) rfl rfl
  have hthree : s.readsOnce 3 = ([at' 1, at' 2, at' 2].map .ok, left []) :=
    readsOnce_of_fetches
      (.more rfl (hdecode 1) (.more rfl (hdecode 2) (.more rfl (hdecode 2) (.none _)))) rfl rfl
  obtain ⟨hiff, hone⟩ := readsOnce_iff_read (by decide) (Predicate.wants_countdown 1) s
  obtain ⟨hok, hseen, hleft⟩ := (hiff _ _).2 ⟨htwo, by decide⟩
  refine ⟨by decide, Predicate.wants_countdown 1, htwo, hok, hseen, hleft, hone, hthree, ?_⟩
  intro hread
  obtain ⟨hsame, hids⟩ := ((readsOnce_iff_read (by decide) (Predicate.wants_countdown 2) s).1
    (s.read .countdown 2).seen (s.read .countdown 2).session).1 ⟨hread, rfl, rfl⟩
  have hstates : [at' 1, at' 2, at' 2] = (s.read .countdown 2).seen := by
    rw [hthree] at hsame
    exact (List.map_inj_right fun _ _ => Except.ok.inj).1 (Prod.mk.inj hsame).1
  rw [← hstates] at hids
  exact absurd hids (by decide)

end Session

end ArmSession
