import ArmSession.Proofs.ScriptedRun

/-!
# The checks of a cycle

A cycle makes its checks in a fixed order. Whether a check fails is said here of the loop, the
link and the callers' state at the start of the cycle, for each check on its own, so several may
fail at once. A cycle that sends its command has passed them all.
-/

namespace ArmSession

/-- The checks of a cycle, in the order in which they are made. -/
inductive Check
  | receive
  | decode
  | order
  | fault
  | motionKind
  | motionValues
  | torqueKind
  | torqueValues
  | send
deriving DecidableEq

namespace Check

def rank : Check → Nat
  | receive => 0
  | decode => 1
  | order => 2
  | fault => 3
  | motionKind => 4
  | motionValues => 5
  | torqueKind => 6
  | torqueValues => 7
  | send => 8

def failure : Check → FailureKind
  | receive => .network
  | decode => .protocol
  | order => .protocol
  | fault => .control
  | motionKind => .control
  | motionValues => .control
  | torqueKind => .control
  | torqueValues => .control
  | send => .network

theorem eq_of_rank_eq {j k : Check} (h : j.rank = k.rank) : j = k := by
  cases j <;> cases k <;> first | rfl | cases h

theorem rank_lt (k : Check) : k.rank < 9 := by
  cases k <;> decide

end Check

def ScriptedLink.nextState? (l : ScriptedLink) : Option RobotState :=
  (l.front? .realtime).bind fun m => (RobotState.decode m).toOption

theorem ScriptedLink.nextState?_eq {l : ScriptedLink} {m : Bytes} {s : RobotState}
    (hfront : l.front? .realtime = some m) (hdecode : RobotState.decode m = .ok s) :
    l.nextState? = some s := by
  simp [nextState?, hfront, hdecode, Except.toOption]

namespace ControlLoop

variable {ρ : Type}

section Answers

variable (c : ControlLoop ρ) (s : RobotState) (user : ρ)

def motionAnswer : Option Command := c.motion.map fun f => (f s (c.receiver.period s) user).1

def userAfterMotion : ρ := c.motion.elim user fun f => (f s (c.receiver.period s) user).2

/-- What the torque callback answers when it is asked after the motion callback. -/
def torqueAnswer : Option Command :=
  c.torque.map fun f => (f s (c.receiver.period s) (c.userAfterMotion s user)).1

def userAfterTorque : ρ :=
  c.torque.elim (c.userAfterMotion s user) fun f =>
    (f s (c.receiver.period s) (c.userAfterMotion s user)).2

theorem motion_dispatch : (c.dispatch s (c.receiver.period s) user).motion =
    c.motionAnswer s user := dispatch_motion c s _ user

theorem torque_dispatch : (c.dispatch s (c.receiver.period s) user).torque =
    c.torqueAnswer s user := dispatch_torque c s _ user

theorem user_dispatch : (c.dispatch s (c.receiver.period s) user).user =
    c.userAfterTorque s user := dispatch_user c s _ user

end Answers

def Fails (c : ControlLoop ρ) (link : ScriptedLink) (user : ρ) : Check → Prop
  | .receive => link.front? .realtime = none
  | .decode => ∃ m e, link.front? .realtime = some m ∧ RobotState.decode m = .error e
  | .order => ∃ s entry, link.nextState? = some s ∧ c.receiver.last = some entry ∧
      s.messageId ≤ entry.1
  | .fault => ∃ s, link.nextState? = some s ∧ s.fault ≠ none
  | .motionKind => ∃ s a, link.nextState? = some s ∧ c.motionAnswer s user = some a ∧
      c.mode.expectedMotion ≠ some a.kind
  | .motionValues => ∃ s a, link.nextState? = some s ∧ c.motionAnswer s user = some a ∧
      a.isFinite = false
  | .torqueKind => ∃ s a, link.nextState? = some s ∧ c.torqueAnswer s user = some a ∧
      a.kind ≠ .torques
  | .torqueValues => ∃ s a, link.nextState? = some s ∧ c.torqueAnswer s user = some a ∧
      a.isFinite = false
  | .send => link.closed = true ∨ link.budget = some 0

/-- No check before the `n`-th fails. -/
def Passes (c : ControlLoop ρ) (link : ScriptedLink) (user : ρ) (n : Nat) : Prop :=
  ∀ k : Check, k.rank < n → ¬ Fails c link user k

def FailsFirst (c : ControlLoop ρ) (link : ScriptedLink) (user : ρ) (k : Check) : Prop :=
  Fails c link user k ∧ Passes c link user k.rank

variable {c : ControlLoop ρ} {link link' : ScriptedLink} {user : ρ}

theorem passes_zero : Passes c link user 0 := by
  intro k hk
  omega

theorem Passes.next (k : Check) (h : Passes c link user k.rank) (hk : ¬ Fails c link user k) :
    Passes c link user (k.rank + 1) := by
  intro j hj
  rcases Nat.lt_succ_iff_lt_or_eq.1 hj with hlt | heq
  · exact h j hlt
  · rw [Check.eq_of_rank_eq heq]
    exact hk

theorem Passes.not_fails (h : Passes c link user 9) (k : Check) : ¬ Fails c link user k :=
  h k k.rank_lt

theorem failsFirst_unique {j k : Check} (hj : FailsFirst c link user j)
    (hk : FailsFirst c link user k) : j = k := by
  have hjk : ¬ j.rank < k.rank := fun h => hk.2 j h hj.1
  have hkj : ¬ k.rank < j.rank := fun h => hj.2 k h hk.1
  exact Check.eq_of_rank_eq (by omega)

section Passing

variable {m : Bytes} {s : RobotState} {period : Duration} {receiver : Receiver}

theorem passes_receive (hfront : link.front? .realtime = some m) : Passes c link user 1 := by
  apply passes_zero.next .receive
  simp [Fails, hfront]

theorem passes_decode (hfront : link.front? .realtime = some m)
    (hdecode : RobotState.decode m = .ok s) : Passes c link user 2 := by
  apply (passes_receive hfront).next .decode
  simp [Fails, hfront, hdecode]

theorem passes_order (hfront : link.front? .realtime = some m)
    (htake : c.receiver.take m = .ok (s, period, receiver)) : Passes c link user 3 := by
  obtain ⟨hdecode, haccept⟩ := Receiver.take_eq_ok_iff.1 htake
  apply (passes_decode hfront hdecode).next .order
  rintro ⟨t, entry, ht, hlast, hle⟩
  rw [ScriptedLink.nextState?_eq hfront hdecode] at ht
  cases ht
  have hlt := Receiver.precededBy?_eq_none_iff.1 (Receiver.accept_eq_ok haccept).1 entry hlast
  exact UInt64.not_le.2 hlt hle

/-- The checks that a healthy state in its place has passed. -/
theorem passes_fault (hfront : link.front? .realtime = some m)
    (htake : c.receiver.take m = .ok (s, period, receiver)) (hfault : s.fault = none) :
    Passes c link user 4 := by
  apply (passes_order hfront htake).next .fault
  rintro ⟨t, ht, hne⟩
  rw [ScriptedLink.nextState?_eq hfront (Receiver.take_eq_ok_iff.1 htake).1] at ht
  cases ht
  exact hne hfault

theorem passes_motion (hc : Fits c) (hpass : Passes c link user 4)
    (hnext : link.nextState? = some s) {part : Option MotionCommand}
    (hpart : motionPart c.mode (c.motionAnswer s user) = .ok part) : Passes c link user 6 := by
  have hslot : c.mode.motion.isSome = (c.motionAnswer s user).isSome := by
    rw [motionAnswer, Option.isSome_map, hc.motion]
  obtain ⟨hanswer, hkind, hfinite⟩ := motionPart_eq_ok hslot hpart
  have hkinds : Passes c link user 5 := by
    apply hpass.next .motionKind
    rintro ⟨t, a, ht, ha, hne⟩
    cases hnext.symm.trans ht
    obtain ⟨motion, hmotion, rfl⟩ := Option.map_eq_some_iff.1 (hanswer.symm.trans ha)
    apply hne
    rw [Mode.expectedMotion, ← hkind, hmotion]
    rfl
  apply hkinds.next .motionValues
  rintro ⟨t, a, ht, ha, hinfinite⟩
  cases hnext.symm.trans ht
  obtain ⟨motion, hmotion, rfl⟩ := Option.map_eq_some_iff.1 (hanswer.symm.trans ha)
  exact Bool.noConfusion ((hfinite motion hmotion).symm.trans hinfinite)

theorem passes_torque (hpass : Passes c link user 6) (hnext : link.nextState? = some s)
    {part : Option Torques} (hpart : torquePart c.mode (c.torqueAnswer s user) = .ok part) :
    Passes c link user 8 := by
  obtain ⟨hanswer, hfinite⟩ := torquePart_eq_ok hpart
  have hkinds : Passes c link user 7 := by
    apply hpass.next .torqueKind
    rintro ⟨t, a, ht, ha, hne⟩
    cases hnext.symm.trans ht
    obtain ⟨torques, -, rfl⟩ := Option.map_eq_some_iff.1 (hanswer.symm.trans ha)
    exact hne rfl
  apply hkinds.next .torqueValues
  rintro ⟨t, a, ht, ha, hinfinite⟩
  cases hnext.symm.trans ht
  obtain ⟨torques, htorques, rfl⟩ := Option.map_eq_some_iff.1 (hanswer.symm.trans ha)
  exact Bool.noConfusion ((hfinite torques htorques).symm.trans hinfinite)

end Passing

theorem passes_combine (hc : Fits c) {s : RobotState} (hpass : Passes c link user 4)
    (hnext : link.nextState? = some s) {command : RobotCommand}
    (hcombine : combine c.mode s.messageId (c.motionAnswer s user) (c.torqueAnswer s user) =
      .ok command) : Passes c link user 8 := by
  obtain ⟨motion, torques, hmotion, htorques, -⟩ := combine_eq_ok_iff.1 hcombine
  exact passes_torque (passes_motion hc hpass hnext hmotion) hnext htorques

/-- No check fails in a cycle that sends its command. -/
theorem Exchanges.not_fails (hc : Fits c) {x : Exchange ρ} {receiver : Receiver}
    (h : Exchanges c link user x receiver link') (k : Check) : ¬ Fails c link user k := by
  obtain ⟨hfront, hbudget, -⟩ := h.scripted
  obtain ⟨hdecode, haccept⟩ := Receiver.take_eq_ok_iff.1 h.taken
  have hnext : link.nextState? = some x.state := ScriptedLink.nextState?_eq hfront hdecode
  have hcombine := h.combined
  rw [h.asked, (Receiver.accept_eq_ok haccept).2.1, motion_dispatch, torque_dispatch] at hcombine
  have hpass : Passes c link user 8 :=
    passes_combine hc (passes_fault hfront h.taken h.unfaulted) hnext hcombine
  refine Passes.not_fails (hpass.next .send ?_) k
  rintro (hclosed | hspent)
  · rw [(ScriptedLink.front?_eq_some_iff.1 hfront).1] at hclosed
    cases hclosed
  · exact hbudget hspent

/-- When no command can be made of the answers, the check that fails first is one of those on the
answers. -/
theorem failsFirst_of_combine_error (hc : Fits c) {s : RobotState}
    (hpass : Passes c link user 4) (hnext : link.nextState? = some s) {e : Failure}
    (hcombine : combine c.mode s.messageId (c.motionAnswer s user) (c.torqueAnswer s user) =
      .error e) :
    ∃ k, FailsFirst c link user k ∧ e.kind = k.failure ∧ Check.fault.rank < k.rank := by
  rcases combine_eq_error hcombine with hmotion | ⟨motion, hmotion, htorque⟩
  · obtain ⟨kind, a, hkind, ha, hcheck⟩ := motionPart_eq_error hmotion
    have hexpected : c.mode.expectedMotion = some (.motion kind) := by
      rw [Mode.expectedMotion, hkind]
      rfl
    rcases checkCommand_eq_error hcheck with ⟨hne, rfl⟩ | ⟨heq, hinfinite, rfl⟩
    · have hfails : Fails c link user .motionKind := by
        refine ⟨s, a, hnext, ha, ?_⟩
        rw [hexpected]
        exact fun h => hne (Option.some.inj h).symm
      exact ⟨.motionKind, ⟨hfails, hpass⟩, rfl, by decide⟩
    · have hkinds : Passes c link user 5 := by
        apply hpass.next .motionKind
        rintro ⟨t, b, ht, hb, hne⟩
        cases hnext.symm.trans ht
        cases ha.symm.trans hb
        exact hne (by rw [hexpected, heq])
      exact ⟨.motionValues, ⟨⟨s, a, hnext, ha, hinfinite⟩, hkinds⟩, rfl, by decide⟩
  · have hpassed : Passes c link user 6 := passes_motion hc hpass hnext hmotion
    obtain ⟨a, ha, hcheck⟩ := torquePart_eq_error htorque
    rcases checkCommand_eq_error hcheck with ⟨hne, rfl⟩ | ⟨heq, hinfinite, rfl⟩
    · exact ⟨.torqueKind, ⟨⟨s, a, hnext, ha, hne⟩, hpassed⟩, rfl, by decide⟩
    · have hkinds : Passes c link user 7 := by
        apply hpassed.next .torqueKind
        rintro ⟨t, b, ht, hb, hne⟩
        cases hnext.symm.trans ht
        cases ha.symm.trans hb
        exact hne heq
      exact ⟨.torqueValues, ⟨⟨s, a, hnext, ha, hinfinite⟩, hkinds⟩, rfl, by decide⟩

end ControlLoop

end ArmSession
