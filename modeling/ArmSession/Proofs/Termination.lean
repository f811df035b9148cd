import ArmSession.Reading
import ArmSession.Proofs.RunEvents
import ArmSession.Proofs.StateMessage
import ArmSession.Proofs.Traced
import Mathlib.Data.List.Sort

/-!
# Every loop comes to an end

Callbacks may never finish and a link may always have another state. What ends a loop all the same
are the message ids: each state that is accepted has a larger one than the state before it, and
there are `2 ^ 64` of them. The counters have as many bits as the ids, so a counter is exact in
every run but one: a run that has taken the ids `0, 1, …, 2 ^ 64 - 1`, all of them, has counted
around to zero.
-/

namespace ArmSession

/-- The ids increase, so they are no more than there are ids from the first one on. -/
structure Rising (ids : List UInt64) : Prop where
  increasing : ids.Pairwise (· < ·)
  bounded : ∀ first, ids.head? = some first → ids.length ≤ UInt64.size - first.toNat

def EveryId (ids : List UInt64) : Prop := ids = (List.range UInt64.size).map UInt64.ofNat

theorem eq_range_of_pairwise {n : Nat} {is : List Nat} (hincreasing : is.Pairwise (· < ·))
    (hbelow : ∀ i ∈ is, i < n) (hlength : is.length = n) : is = List.range n := by
  have hsubset : is ⊆ List.range n := fun i hi => List.mem_range.2 (hbelow i hi)
  have hsubperm : is.Subperm (List.range n) := List.subperm_of_subset hincreasing.nodup hsubset
  have hperm : is.Perm (List.range n) := hsubperm.perm_of_length_le (by simp [hlength])
  exact hperm.eq_of_pairwise' hincreasing List.pairwise_lt_range

theorem everyId_iff_length {ids : List UInt64} (h : ids.Pairwise (· < ·)) :
    EveryId ids ↔ ids.length = UInt64.size := by
  constructor
  · intro hevery
    rw [hevery, List.length_map, List.length_range]
  · intro hlength
    have hnumbers : (ids.map UInt64.toNat).Pairwise (· < ·) :=
      List.pairwise_map.2 (h.imp UInt64.lt_iff_toNat_lt.1)
    have hbelow : ∀ i ∈ ids.map UInt64.toNat, i < UInt64.size := by
      intro i hi
      obtain ⟨id, -, rfl⟩ := List.mem_map.1 hi
      exact id.toNat_lt_size
    have hrange := eq_range_of_pairwise hnumbers hbelow (by rw [List.length_map, hlength])
    rw [EveryId, ← hrange, List.map_map]
    simp [Function.comp_def]

namespace Receiver

variable {r r' : Receiver} {xs : List Intake}

theorem idsLeft_pos (r : Receiver) : 0 < r.idsLeft := by
  unfold idsLeft
  cases r.last with
  | none => exact Nat.succ_pos _
  | some entry =>
      have hid := entry.1.toNat_lt_size
      dsimp only
      omega

/-- Every state that is accepted leaves fewer to come. -/
theorem Takes.length_le (h : Takes r xs r') : xs.length + r'.idsLeft ≤ r.idsLeft := by
  induction h with
  | none r => simp
  | more first rest ih =>
      have hfewer := idsLeft_lt_of_take first
      rw [List.length_cons]
      omega

theorem Takes.length_le_size {timeout : Duration} (h : Takes (.new timeout) xs r') :
    xs.length ≤ UInt64.size := by
  have hlength := h.length_le
  have hleft := r'.idsLeft_pos
  have hall : (Receiver.new timeout).idsLeft = UInt64.size + 1 := rfl
  omega

/-- A count of the states that a new receiver has accepted is wrong only if it has accepted all
ids. -/
theorem Takes.counter_exact_iff {timeout : Duration} (h : Takes (.new timeout) xs r') :
    (UInt64.ofNat xs.length).toNat = xs.length ↔ ¬EveryId (xs.map (·.state.messageId)) := by
  have hlength := h.length_le_size
  have hsize : UInt64.size = 2 ^ 64 := rfl
  rw [everyId_iff_length h.pairwise_ids, List.length_map, UInt64.toNat_ofNat',
    Nat.mod_eq_iff_lt (by decide)]
  omega

theorem Takes.rising (h : Takes r xs r') : Rising (xs.map (·.state.messageId)) := by
  refine ⟨h.pairwise_ids, ?_⟩
  intro first hfirst
  cases h with
  | none => cases hfirst
  | @more r between r' x xs accepted rest =>
      cases hfirst
      have hlength := rest.length_le
      have hleft := r'.idsLeft_pos
      have hbetween : between.idsLeft = UInt64.size - x.state.messageId.toNat := by
        rw [idsLeft, last_of_take accepted]
      rw [List.length_map, List.length_cons]
      dsimp only
      omega

end Receiver

variable {σ ρ τ : Type} [Link σ]

namespace ControlLoop

/-- The cycles of a loop, if they come to their end within `n`. -/
def cyclesWithin (n : Nat) (c : ControlLoop ρ) (link : σ) (user : ρ) : Option (Run σ ρ) :=
  match n with
  | 0 => none
  | n + 1 =>
    match c.cycle link user with
    | .ended run => some run
    | .again c link user events => (cyclesWithin n c link user).map (·.after events)

def conclude (c : ControlLoop ρ) (ran : Run σ ρ) : Run σ ρ :=
  { ran with
    loop := { ran.loop with phase := endPhase ran.result }
    events := .started c.mode :: ran.events ++ [endEvent ran] }

def runWithin (n : Nat) (c : ControlLoop ρ) (link : σ) (user : ρ) : Option (Run σ ρ) :=
  if c.phase.isTerminal then some ⟨.error (.alreadyEnded c.phase), c, link, user, []⟩
  else (c.cyclesWithin n link user).map c.conclude

theorem Course.cyclesWithin_eq {c : ControlLoop ρ} {link : σ} {user : ρ}
    {xs : List (Exchange ρ)} {run : Run σ ρ} (h : Course c link user xs run) {n : Nat}
    (hn : xs.length < n) : c.cyclesWithin n link user = some run := by
  induction n generalizing c link user xs run with
  | zero => exact absurd hn (Nat.not_lt_zero _)
  | succ n ih =>
      cases h with
      | broken last => rw [cyclesWithin, cycle_of_breaks last]
      | finished last final => rw [cyclesWithin, cycle_of_exchanges last, if_pos final]
      | again first ongoing rest =>
          have hrest := ih rest (Nat.lt_of_succ_lt_succ hn)
          rw [cyclesWithin, cycle_of_exchanges first, if_neg (by simp [ongoing])]
          dsimp only
          rw [hrest]
          rfl

end ControlLoop

namespace Reading

def runWithin (n : Nat) (p : Predicate τ) (r : Receiver) (link : σ) (user : τ) (count : UInt64) :
    Option (Reading σ τ) :=
  match n with
  | 0 => none
  | n + 1 =>
    match r.next link with
    | (.error e, link) => some ⟨.error e, link, user, [], count⟩
    | (.ok (s, _, r), link) =>
      match p s user with
      | (true, user) =>
        (runWithin n p r link user (count + 1)).map fun rest =>
          { rest with seen := s :: rest.seen }
      | (false, user) => some ⟨.ok (), link, user, [s], count + 1⟩

theorem runWithin_eq (p : Predicate τ) (r : Receiver) (link : σ) (user : τ) (count : UInt64)
    {n : Nat} (hn : (run p r link user count).seen.length < n) :
    runWithin n p r link user count = some (run p r link user count) := by
  induction n generalizing r link user count with
  | zero => exact absurd hn (Nat.not_lt_zero _)
  | succ n ih =>
      cases hnext : r.next link with
      | mk answer link' =>
      cases answer with
      | error e => rw [runWithin, hnext, run_of_error hnext]
      | ok accepted =>
      obtain ⟨s, period, r'⟩ := accepted
      rw [run_of_ok hnext] at hn ⊢
      rw [runWithin, hnext]
      dsimp only
      cases hanswer : p s user with
      | mk goesOn user' =>
      rw [hanswer] at hn
      cases goesOn with
      | true =>
          have hrest := ih r' link' user' (count + 1) (Nat.lt_of_succ_lt_succ hn)
          dsimp only
          rw [hrest]
          rfl
      | false => rfl

/-- One receiver takes the states that a reading shows, and the count grows by one for each. -/
theorem exists_takes (p : Predicate τ) (r : Receiver) (link : σ) (user : τ) (count : UInt64) :
    ∃ accepted r', r.Takes accepted r' ∧
      (run p r link user count).seen = accepted.map (·.state) ∧
        (run p r link user count).count = count + UInt64.ofNat accepted.length := by
  induction r, link, user, count using @Reading.run.induct σ τ _ p with
  | case1 r link user count e link' hnext =>
      rw [run_of_error hnext]
      exact ⟨[], r, .none r, rfl, (UInt64.add_zero count).symm⟩
  | case2 r link user count s period r' link' hnext user' hyes ih =>
      obtain ⟨accepted, r'', htakes, hseen, hcount⟩ := ih
      obtain ⟨m, htake⟩ := Receiver.exists_take_of_next hnext
      rw [run_of_ok hnext, hyes]
      refine ⟨⟨m, s, period⟩ :: accepted, r'', .more htake htakes, ?_, ?_⟩
      · rw [List.map_cons, ← hseen]
      · dsimp only
        rw [hcount, List.length_cons, UInt64.add_assoc, UInt64.ofNat_add, UInt64.add_comm 1]
        rfl
  | case3 r link user count s period r' link' hnext user' hno =>
      obtain ⟨m, htake⟩ := Receiver.exists_take_of_next hnext
      rw [run_of_ok hnext, hno]
      exact ⟨[⟨m, s, period⟩], r', .more htake (.none r'), rfl, rfl⟩

end Reading

def LinkCall.isSent : LinkCall → Bool
  | send _ _ (.ok _) => true
  | _ => false

theorem BrokenCalls.countP_isSent {timeout : Duration} {calls : List LinkCall}
    (h : BrokenCalls timeout calls) : calls.countP LinkCall.isSent = 0 := by
  cases h <;> rfl

theorem ControlLoop.Course.countP_isSent {c : ControlLoop ρ} {t : Traced σ} {user : ρ}
    {xs : List (Exchange ρ)} {run : Run (Traced σ) ρ} (h : Course c t user xs run) :
    run.link.calls.countP LinkCall.isSent =
      t.calls.countP LinkCall.isSent + xs.length := by
  obtain ⟨ending, hcalls, hok, herror⟩ := h.calls_eq
  have hending : ending.countP LinkCall.isSent = 0 := by
    by_cases hresult : run.result = .ok ()
    · rw [hok hresult]
      rfl
    · exact (herror hresult).countP_isSent
  rw [hcalls, List.countP_append, List.countP_append,
    countP_flatMap_calls_of_one (fun _ => rfl), hending, Nat.add_zero]

structure ControlLoop.Ends (c : ControlLoop ρ) (link : σ) (user : ρ) (ran : Run σ ρ) : Prop where
  /-- It has a cycle for each state that it accepts, and at most one more. -/
  within : c.runWithin (ran.received.length + 1) link user = some ran
  rising : Rising (ran.received.map (·.1.messageId))
  answered : ran.commands.map (·.messageId) <+: ran.received.map (·.1.messageId)
  /-- The link has taken the commands that the run names. -/
  sent : (c.run (Traced.start link) user).link.calls.countP LinkCall.isSent = ran.commands.length
  counted : ran.loop.commandsSent.toNat = ran.commands.length ↔
    ¬EveryId (ran.commands.map (·.messageId))

structure Reading.Ends (timeout : Duration) (p : Predicate τ) (link : σ) (user : τ)
    (reading : Reading σ τ) : Prop where
  within : runWithin (reading.seen.length + 1) p (.new timeout) link user 0 = some reading
  rising : Rising (reading.seen.map (·.messageId))
  counted : reading.count.toNat = reading.seen.length ↔ ¬EveryId (reading.seen.map (·.messageId))

theorem Reading.ends (timeout : Duration) (p : Predicate τ) (link : σ) (user : τ) :
    Ends timeout p link user (readLoop timeout p link user) := by
  obtain ⟨accepted, r', htakes, hseen, hcount⟩ := exists_takes p (.new timeout) link user 0
  have hids : (readLoop timeout p link user).seen.map (·.messageId) =
      accepted.map (·.state.messageId) := by
    rw [readLoop, hseen, List.map_map]
    rfl
  refine ⟨?_, ?_, ?_⟩
  · exact runWithin_eq p _ link user 0 (Nat.lt_succ_self _)
  · rw [hids]
    exact htakes.rising
  · rw [hids, ← htakes.counter_exact_iff, readLoop, hcount, hseen, List.length_map,
      UInt64.zero_add]

namespace ControlLoop

theorem ends {mode : Mode} {motion torque : Option (Callback ρ)} {timeout : Duration}
    {c : ControlLoop ρ} (hnew : new mode motion torque timeout = .ok c) (link : σ) (user : ρ) :
    c.Ends link user (c.run link user) := by
  obtain ⟨hphase, hreceiver, hzero⟩ := initial_of_new hnew
  obtain ⟨xs, htraced, hxs⟩ := exists_course_traced c link user
  obtain ⟨unanswered, r, htakes, -, hreceived⟩ := hxs.takes_received
  obtain ⟨_, hanswered⟩ := hxs.takes
  rw [hreceiver] at htakes hanswered
  have hnumber : (c.run link user).commands.length = xs.length := by
    rw [commands_run hphase, hxs.commands_eq, List.length_map]
  have hsent : (c.run link user).commands.map (·.messageId) =
      (xs.map Exchange.toIntake).map (·.state.messageId) := by
    rw [commands_run hphase, hxs.ids_commands, List.map_map]
    rfl
  have haccepted : (c.run link user).received.map (·.1.messageId) =
      (xs.map Exchange.toIntake ++ unanswered).map (·.state.messageId) := by
    rw [received_run hphase, hreceived, List.map_map]
    rfl
  refine ⟨?_, ?_, ?_, ?_, ?_⟩
  · -- Every exchange has accepted a state, so one cycle more than there are states is enough.
    have hwithin : xs.length < (c.run link user).received.length + 1 := by
      rw [received_run hphase, hreceived, List.length_map, List.length_append, List.length_map]
      omega
    rw [runWithin, if_neg (by simp [hphase]), hxs.cyclesWithin_eq hwithin, run_eq hphase]
    rfl
  · rw [haccepted]
    exact htakes.rising
  · rw [hsent, haccepted, List.map_append]
    exact List.prefix_append _ _
  · rw [hnumber, run_eq hphase]
    exact htraced.countP_isSent.trans (Nat.zero_add _)
  · have hcount : (c.run link user).loop.commandsSent = UInt64.ofNat xs.length := by
      rw [run_eq hphase]
      dsimp only
      rw [hxs.commandsSent_eq, hzero, UInt64.zero_add]
    have hexact := hanswered.counter_exact_iff
    rw [List.length_map] at hexact
    rw [hsent, ← hexact, hcount, hnumber]

end ControlLoop

/-- A link that takes every command and always has a state, with the id after the last one. -/
structure Metronome where
  next : UInt64

namespace Metronome

def state (id : UInt64) : RobotState := { RobotState.initial with messageId := id }

instance : Link Metronome where
  send _ _ m := (.ok (), m)
  receive _ _ m := (.ok (state m.next).encode, ⟨m.next + 1⟩)
  realtimePort _ := 0

def after (i : Nat) : Metronome := ⟨UInt64.ofNat i⟩

/-- The receiver has accepted the state before the `i`-th last, or none if there is none before. -/
def Expected (r : Receiver) (i : Nat) : Prop :=
  r.last.map Prod.fst = if i = 0 then none else some (UInt64.ofNat (i - 1))

theorem decode_state (id : UInt64) : RobotState.decode (state id).encode = .ok (state id) :=
  RobotState.decode_encode_of_zero rfl

theorem receive_after (i : Nat) (timeout : Duration) : Link.receive .realtime timeout (after i) =
    (.ok (state (UInt64.ofNat i)).encode, after (i + 1)) := by
  have hnext : UInt64.ofNat i + 1 = UInt64.ofNat (i + 1) := (UInt64.ofNat_add i 1).symm
  change (_, Metronome.mk (UInt64.ofNat i + 1)) = _
  rw [hnext]
  rfl

theorem take_state {r : Receiver} {i : Nat} (h : Expected r i) (hi : i < UInt64.size) :
    ∃ period r', r.take (state (UInt64.ofNat i)).encode =
      .ok (state (UInt64.ofNat i), period, r') ∧ Expected r' (i + 1) := by
  have hfirst : r.precededBy? (state (UInt64.ofNat i)) = none := by
    refine Receiver.precededBy?_eq_none_iff.2 ?_
    intro entry hentry
    rw [Expected, hentry] at h
    by_cases hzero : i = 0
    · rw [if_pos hzero] at h
      cases h
    · rw [if_neg hzero] at h
      have hid : entry.1 = UInt64.ofNat (i - 1) := Option.some.inj h
      rw [hid, UInt64.lt_iff_toNat_lt, UInt64.toNat_ofNat_of_lt' (by omega)]
      change i - 1 < (UInt64.ofNat i).toNat
      rw [UInt64.toNat_ofNat_of_lt' hi]
      omega
  have haccept : r.accept (state (UInt64.ofNat i)) = .ok (r.period (state (UInt64.ofNat i)),
      { r with last := some (UInt64.ofNat i, .zero) }) := by
    unfold Receiver.accept
    rw [hfirst]
    rfl
  refine ⟨_, _, Receiver.take_eq_ok_iff.2 ⟨decode_state _, haccept⟩, ?_⟩
  rw [Expected, if_neg (Nat.succ_ne_zero i)]
  rfl

/-- After the last id comes zero, which is out of order. -/
theorem take_around {r : Receiver} (h : Expected r UInt64.size) :
    r.take (state (UInt64.ofNat UInt64.size)).encode =
      .error (.outOfOrder 0 (UInt64.ofNat (UInt64.size - 1))) := by
  rw [Expected, if_neg (by decide)] at h
  obtain ⟨entry, hentry, hid⟩ := Option.map_eq_some_iff.1 h
  have hsecond : r.precededBy? (state (UInt64.ofNat UInt64.size)) =
      some (UInt64.ofNat (UInt64.size - 1)) := by
    unfold Receiver.precededBy?
    rw [hentry, ← hid]
    exact if_pos (UInt64.zero_le)
  have haccept : r.accept (state (UInt64.ofNat UInt64.size)) =
      .error (.outOfOrder 0 (UInt64.ofNat (UInt64.size - 1))) := by
    unfold Receiver.accept
    rw [hsecond]
    rfl
  unfold Receiver.take
  rw [decode_state]
  dsimp only
  rw [haccept]

end Metronome

namespace ControlLoop

def Endless (c : ControlLoop ρ) : Prop :=
  ∀ s period user, ∃ command, combine c.mode s.messageId (c.dispatch s period user).motion
    (c.dispatch s period user).torque = .ok command ∧ command.finished = false

theorem exists_course_metronome {c : ControlLoop ρ} (hendless : c.Endless) {i k : Nat}
    (hsum : i + k = UInt64.size) (h : Metronome.Expected c.receiver i) (user : ρ) :
    ∃ xs run, Course c (Metronome.after i) user xs run ∧
      xs.map (·.state.messageId) = (List.range' i k).map UInt64.ofNat ∧
        run.result = .error (.outOfOrder 0 (UInt64.ofNat (UInt64.size - 1))) := by
  -- On how many ids are left: with none left the link gives zero once more.
  induction k generalizing c i user with
  | zero =>
      rw [Nat.add_zero] at hsum
      rw [hsum] at h
      have harrived := Metronome.receive_after i c.receiver.timeout
      have hfailed := Metronome.take_around h
      rw [← hsum] at hfailed
      exact ⟨[], _, .broken (.take harrived hfailed), rfl, by rw [hsum]⟩
  | succ k ih =>
      obtain ⟨period, receiver, htaken, hnext⟩ := Metronome.take_state h (by omega)
      let s := Metronome.state (UInt64.ofNat i)
      obtain ⟨command, hcombined, hongoing⟩ := hendless s period user
      let x : Exchange ρ := ⟨⟨s.encode, s, period⟩, c.dispatch s period user, command⟩
      have hfirst : Exchanges c (Metronome.after i) user x receiver (Metronome.after (i + 1)) :=
        ⟨⟨_, Metronome.receive_after i _, rfl⟩, htaken, rfl, rfl, hcombined⟩
      have hrest : Endless (c.afterSend receiver) := hendless
      obtain ⟨xs, run, hcourse, hids, hresult⟩ := ih hrest (by omega) hnext x.answers.user
      refine ⟨x :: xs, _, .again hfirst hongoing hcourse, ?_, hresult⟩
      rw [List.map_cons, hids, List.range'_succ, List.map_cons]
      rfl

/-- An endless loop takes and answers every id, and its counter is back at zero. -/
theorem counts_around {mode : Mode} {motion torque : Option (Callback ρ)} {timeout : Duration}
    {c : ControlLoop ρ} (hnew : new mode motion torque timeout = .ok c) (hendless : c.Endless)
    (user : ρ) : let ran := c.run (Metronome.after 0) user
    EveryId (ran.commands.map (·.messageId)) ∧ ran.loop.commandsSent = 0 ∧
      ran.result = .error (.outOfOrder 0 (UInt64.ofNat (UInt64.size - 1))) := by
  intro ran
  obtain ⟨hphase, hreceiver, hzero⟩ := initial_of_new hnew
  have hexpected : Metronome.Expected c.receiver 0 := by
    rw [hreceiver]
    rfl
  obtain ⟨xs, run, hxs, hids, hresult⟩ :=
    exists_course_metronome hendless (Nat.zero_add _) hexpected user
  have hran : c.cycles (Metronome.after 0) user = run := hxs.cycles_eq
  have hlength : xs.length = UInt64.size := by
    rw [← List.length_map (·.state.messageId), hids, List.length_map, List.length_range']
  refine ⟨?_, ?_, ?_⟩
  · change EveryId ((c.run (Metronome.after 0) user).commands.map (·.messageId))
    rw [commands_run hphase, hran, hxs.ids_commands, hids, EveryId, List.range_eq_range']
  · change (c.run (Metronome.after 0) user).loop.commandsSent = 0
    rw [run_eq hphase, hran]
    dsimp only
    rw [hxs.commandsSent_eq, hzero, hlength]
    decide
  · change (c.run (Metronome.after 0) user).result = _
    rw [run_eq hphase, hran]
    exact hresult

/-- Both loops end, whatever the link does and whatever the callers' functions answer. -/
theorem loops_end (link : σ) :
    (∀ (mode : Mode) (motion torque : Option (Callback ρ)) (timeout : Duration)
      (c : ControlLoop ρ) (user : ρ), new mode motion torque timeout = .ok c →
        c.Ends link user (c.run link user)) ∧
    ∀ (timeout : Duration) (p : Predicate τ) (user : τ),
      Reading.Ends timeout p link user (readLoop timeout p link user) :=
  ⟨fun _ _ _ _ _ user hnew => ends hnew link user,
    fun timeout p user => Reading.ends timeout p link user⟩

/-- The motion is never finished and the link always has a state: the run ends all the same, with
its counter back at zero. -/
theorem loops_end_of_metronome :
    let hold : Callback Nat := fun _ _ n =>
      (.ofSetpoint .jointPosition (.ongoing (.zeros jointCount)), n + 1)
    let c : ControlLoop Nat :=
      ⟨.motionOnly .jointPosition, some hold, none, .new (.ofMillis 1000), .idle, 0⟩
    let watch : Predicate Nat := fun _ n => (true, n + 1)
    new (.motionOnly .jointPosition) (some hold) none (.ofMillis 1000) = .ok c ∧
      c.Ends (Metronome.after 0) 0 (c.run (Metronome.after 0) 0) ∧
      Reading.Ends (.ofMillis 1000) watch (Metronome.after 0) 0
        (readLoop (.ofMillis 1000) watch (Metronome.after 0) 0) ∧
      (c.run (Metronome.after 0) 0).loop.commandsSent = 0 ∧
      (c.run (Metronome.after 0) 0).commands.length ≠ 0 := by
  intro hold c watch
  have hnew : new (.motionOnly .jointPosition) (some hold) none (.ofMillis 1000) = .ok c := rfl
  have hends := (loops_end (ρ := Nat) (τ := Nat) (Metronome.after 0)).1 _ _ _ _ c 0 hnew
  have hreading := (loops_end (ρ := Nat) (τ := Nat) (Metronome.after 0)).2 (.ofMillis 1000) watch 0
  have hendless : c.Endless := fun s period user => ⟨_, rfl, rfl⟩
  obtain ⟨hevery, hcount, -⟩ := counts_around hnew hendless 0
  refine ⟨hnew, hends, hreading, hcount, ?_⟩
  have hlength := congrArg List.length hevery
  rw [List.length_map, List.length_map, List.length_range] at hlength
  rw [hlength]
  decide

end ControlLoop

end ArmSession
