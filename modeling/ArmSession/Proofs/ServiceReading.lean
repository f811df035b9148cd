import Mathlib.Data.List.Basic
import ArmSession.Proofs.Bursts
import ArmSession.Proofs.LinkChanges
import ArmSession.Proofs.ServiceFraming
import ArmSession.Proofs.Traffic

/-!
# Messages from the service stream

A receive on the service channel takes the first frame of the burst that it meets, whole. Without a
whole frame it takes nothing that it could give back: a pause then leaves the reader out of step,
unless it comes before the first byte, and so does a length that is too large. Hence the messages
that a run of calls receives are the first frames of what the peer puts on the stream, however this
was cut into chunks and wherever reads were interrupted, timed out or failed.
-/

namespace ArmSession.Net

open Wire

inductive Front
  | message (m rest : Bytes)
  | tooLong (size : Nat)
  | part
deriving DecidableEq

def front (bs : Bytes) : Front :=
  match readNumber lengthSize bs with
  | none => .part
  | some (size, body) =>
    if maxServiceMessage < size then .tooLong size
    else if size ≤ body.length then .message (body.take size) (body.drop size)
    else .part

variable {bs m rest : Bytes} {size : Nat}

theorem readNumber_frame (m rest : Bytes) (h : m.length ≤ maxServiceMessage) :
    readNumber lengthSize (frame m ++ rest) = some (m.length, m ++ rest) := by
  refine (readNumber_eq_some_iff ..).2 ⟨Nat.lt_of_le_of_lt h (by decide), ?_⟩
  rw [frame, List.append_assoc]

theorem front_eq_message_iff :
    front bs = .message m rest ↔ m.length ≤ maxServiceMessage ∧ bs = frame m ++ rest := by
  constructor
  · intro h
    unfold front at h
    cases hnumber : readNumber lengthSize bs with
    | none => simp [hnumber] at h
    | some answer =>
        obtain ⟨size, body⟩ := answer
        obtain ⟨-, rfl⟩ := (readNumber_eq_some_iff ..).1 hnumber
        simp only [hnumber] at h
        split at h
        · cases h
        · next hsize =>
            split at h
            · next hbody =>
                cases h
                have hlength : (body.take size).length = size := by
                  rw [List.length_take, Nat.min_eq_left hbody]
                refine ⟨by omega, ?_⟩
                rw [frame, hlength, List.append_assoc, List.take_append_drop]
            · cases h
  · rintro ⟨hm, rfl⟩
    simp [front, readNumber_frame m rest hm, Nat.not_lt.2 hm]

theorem front_of_lt (h : bs.length < lengthSize) : front bs = .part := by
  simp [front, readNumber, Nat.not_le.2 h]

theorem length_lt_of_front (h : front bs = .message m rest) : rest.length < bs.length := by
  obtain ⟨-, rfl⟩ := front_eq_message_iff.1 h
  rw [List.length_append, length_frame]
  have hsize : 0 < lengthSize := by decide
  omega

/-- The messages of the frames that bytes begin with, up to the first that is too long or not
whole. -/
def framesIn (bs : Bytes) : List Bytes :=
  match _h : front bs with
  | .message m rest => m :: framesIn rest
  | .tooLong _ => []
  | .part => []
termination_by bs.length
decreasing_by exact length_lt_of_front _h

theorem framesIn_frame (m rest : Bytes) (h : m.length ≤ maxServiceMessage) :
    framesIn (frame m ++ rest) = m :: framesIn rest := by
  have hfront : front (frame m ++ rest) = .message m rest := front_eq_message_iff.2 ⟨h, rfl⟩
  rw [framesIn]
  split
  · next hm =>
      cases hfront.symm.trans hm
      rfl
  · next hm => cases hfront.symm.trans hm
  · next hm => cases hfront.symm.trans hm

theorem framesIn_nil : framesIn [] = [] := by
  rw [framesIn]
  split
  · next hm => exact absurd (length_lt_of_front hm) (Nat.not_lt_zero _)
  · rfl
  · rfl

theorem flatMap_framesIn_front (bs : Bytes) : (framesIn bs).flatMap frame <+: bs := by
  induction bs using framesIn.induct with
  | case1 bs m rest hfront ih =>
      obtain ⟨hm, rfl⟩ := front_eq_message_iff.1 hfront
      rw [framesIn_frame m rest hm, List.flatMap_cons]
      exact (List.prefix_append_right_inj (frame m)).2 ih
  | case2 bs size hfront =>
      rw [framesIn]
      split
      · next hm => cases hfront.symm.trans hm
      · exact List.nil_prefix
      · exact List.nil_prefix
  | case3 bs hfront =>
      rw [framesIn]
      split
      · next hm => cases hfront.symm.trans hm
      · exact List.nil_prefix
      · exact List.nil_prefix

/-- What a receive comes to: its answer, the bytes it takes off the stream, and whether the reader
loses its place. -/
structure Reception where
  answer : Except LinkError Bytes
  taken : Bytes
  lost : Bool

namespace Burst

/-- What it means that a burst has no whole frame. A pause is harmless only before a frame. -/
def shortage (timeout : Duration) (inFrame : Bool) (b : Burst) : LinkError × Bool :=
  match b.stop with
  | .pause =>
    if inFrame || !b.bytes.isEmpty then (.closed, true) else (.timeout timeout, false)
  | .endOfStream => (.closed, false)
  | .failed e => (e.onRead timeout, false)

def reception (timeout : Duration) (b : Burst) : Reception :=
  match front b.bytes with
  | .message m _ => ⟨.ok m, frame m, false⟩
  | .tooLong size => ⟨.error (.messageTooLarge size), b.bytes.take lengthSize, true⟩
  | .part => ⟨.error (b.shortage timeout false).1, b.bytes, (b.shortage timeout false).2⟩

theorem shortage_drop {b : Burst} {n : Nat} (timeout : Duration) (h : b.bytes ≠ []) :
    (b.drop n).shortage timeout true = b.shortage timeout false := by
  unfold shortage drop
  cases b.stop <;> simp [h]

end Burst

namespace NetworkLink

variable {l l' : NetworkLink} {b : Burst} {timeout : Duration} {inFrame : Bool} {n : Nat}

theorem inflow_readExact (timeout : Duration) (inFrame : Bool) (n : Nat) (l : NetworkLink) :
    (l.readExact timeout inFrame n).2.stream.inflow =
      (fill (patience timeout) n l.stream.inflow).inflow := by
  obtain ⟨outOfStep, now, log, hread⟩ := l.readExact_changes timeout inFrame n
  rw [hread]

theorem unread_readExact (hb : burst (patience timeout) l.stream.inflow = b) (inFrame : Bool)
    (n : Nat) : l.stream.unread =
      b.bytes.take n ++ (l.readExact timeout inFrame n).2.stream.unread := by
  have hpending := pending_fill (patience timeout) n l.stream.inflow
  rw [(fill_eq _ _ _).1, hb, ← inflow_readExact timeout inFrame] at hpending
  exact hpending

/-- With enough bytes in the burst a read gets them and leaves the others. -/
theorem readExact_of_le (hb : burst (patience timeout) l.stream.inflow = b) (inFrame : Bool)
    (h : n ≤ b.bytes.length) : ∃ l', l.readExact timeout inFrame n = (.ok (b.bytes.take n), l') ∧
      burst (patience timeout) l'.stream.inflow = b.drop n ∧
      l.stream.unread = b.bytes.take n ++ l'.stream.unread ∧ l'.outOfStep = l.outOfStep := by
  obtain ⟨hbytes, hfull, -⟩ := fill_eq (patience timeout) n l.stream.inflow
  rw [hb] at hbytes hfull
  obtain ⟨hending, hrest⟩ := hfull h
  have hread : ∃ l', l.readExact timeout inFrame n = (.ok (b.bytes.take n), l') ∧
      l'.outOfStep = l.outOfStep := by
    unfold readExact
    dsimp only
    rw [hending, hbytes]
    exact ⟨_, rfl, rfl⟩
  obtain ⟨l', hread, hstep⟩ := hread
  have hinflow := inflow_readExact timeout inFrame n l
  have hunread := unread_readExact hb inFrame n
  rw [hread] at hinflow hunread
  exact ⟨l', hread, hinflow ▸ hrest, hunread, hstep⟩

theorem readExact_of_lt (hb : burst (patience timeout) l.stream.inflow = b) (inFrame : Bool)
    (h : b.bytes.length < n) (hstep : l.outOfStep = false) : ∃ l',
      l.readExact timeout inFrame n = (.error (b.shortage timeout inFrame).1, l') ∧
      l.stream.unread = b.bytes ++ l'.stream.unread ∧
      l'.outOfStep = (b.shortage timeout inFrame).2 := by
  obtain ⟨hbytes, -, hshort⟩ := fill_eq (patience timeout) n l.stream.inflow
  have hunread := unread_readExact hb inFrame n
  rw [hb] at hbytes hshort
  rw [List.take_of_length_le (Nat.le_of_lt h)] at hbytes hunread
  have hstop := hshort h
  suffices hread : ∃ l',
      l.readExact timeout inFrame n = (.error (b.shortage timeout inFrame).1, l') ∧
        l'.outOfStep = (b.shortage timeout inFrame).2 by
    obtain ⟨l', hread, hlost⟩ := hread
    rw [hread] at hunread
    exact ⟨l', hread, hunread, hlost⟩
  unfold readExact Burst.shortage
  dsimp only
  rw [hbytes]
  cases hending : (fill (patience timeout) n l.stream.inflow).ending with
  | full =>
      rw [hending] at hstop
      cases hstop
  | endOfStream =>
      rw [hending] at hstop
      rw [← Option.some.inj hstop]
      exact ⟨_, rfl, hstep⟩
  | failed e =>
      rw [hending] at hstop
      have hstop : e.stop = b.stop := Option.some.inj hstop
      dsimp only
      cases hpause : b.stop with
      | pause =>
          rw [IoError.onRead_of_pause (hstop.trans hpause)]
          cases inFrame || !b.bytes.isEmpty with
          | true => exact ⟨_, rfl, rfl⟩
          | false => exact ⟨_, rfl, hstep⟩
      | endOfStream =>
          rw [hpause] at hstop
          unfold IoError.stop at hstop
          split at hstop <;> cases hstop
      | failed cause =>
          obtain ⟨rfl, htimeout⟩ := IoError.onRead_of_failed (hstop.trans hpause) timeout
          rw [htimeout]
          exact ⟨_, rfl, hstep⟩

/-- A receive on a stream that is in step depends on nothing but the burst that it meets. -/
theorem receiveService_eq (hb : burst (patience timeout) l.stream.inflow = b)
    (hstep : l.outOfStep = false) :
    (l.receiveService timeout).1 = (b.reception timeout).answer ∧
      l.stream.unread = (b.reception timeout).taken ++ (l.receiveService timeout).2.stream.unread ∧
      (l.receiveService timeout).2.outOfStep = (b.reception timeout).lost := by
  unfold receiveService Burst.reception
  rw [if_neg (by simp [hstep])]
  by_cases hshort : b.bytes.length < lengthSize
  · obtain ⟨l', hread, hunread, hlost⟩ := readExact_of_lt hb false hshort hstep
    rw [hread, front_of_lt hshort]
    exact ⟨rfl, hunread, hlost⟩
  · have hlength : lengthSize ≤ b.bytes.length := Nat.not_lt.1 hshort
    obtain ⟨l₁, hread, hb₁, hunread, hstep₁⟩ := readExact_of_le hb false hlength
    have hnumber : readNumber lengthSize b.bytes =
        some (ofLittleEndian (b.bytes.take lengthSize), b.bytes.drop lengthSize) := if_pos hlength
    rw [hread, front, hnumber]
    dsimp only
    generalize hsize : ofLittleEndian (b.bytes.take lengthSize) = size
    by_cases hlong : maxServiceMessage < size
    · rw [if_pos hlong, if_pos hlong]
      exact ⟨rfl, hunread, rfl⟩
    · rw [if_neg hlong, if_neg hlong]
      by_cases hbody : size ≤ (b.bytes.drop lengthSize).length
      · obtain ⟨l₂, hread₂, -, hunread₂, hstep₂⟩ := readExact_of_le hb₁ true hbody
        have hhead := littleEndian_ofLittleEndian (b.bytes.take lengthSize)
        rw [List.length_take, Nat.min_eq_left hlength, hsize] at hhead
        rw [hread₂, if_pos hbody]
        refine ⟨rfl, ?_, hstep₂.trans (hstep₁.trans hstep)⟩
        rw [hunread, hunread₂, ← List.append_assoc]
        dsimp only
        rw [frame, List.length_take, Nat.min_eq_left hbody, hhead]
        rfl
      · obtain ⟨l₂, hread₂, hunread₂, hlost₂⟩ := readExact_of_lt hb₁ true (Nat.not_le.1 hbody)
          (hstep₁.trans hstep)
        -- The length was there, so this burst has the same shortage in the body as at the start.
        have hsome : b.bytes ≠ [] := by
          intro hnil
          rw [hnil] at hlength
          exact absurd hlength (by decide)
        rw [Burst.shortage_drop timeout hsome] at hread₂ hlost₂
        rw [hread₂, if_neg hbody]
        refine ⟨rfl, ?_, hlost₂⟩
        rw [hunread, hunread₂, ← List.append_assoc]
        congr 1
        exact List.take_append_drop lengthSize b.bytes

theorem quiet_receiveService (timeout : Duration) (h : Quiet l.stream.inflow) :
    Quiet (l.receiveService timeout).2.stream.inflow := by
  unfold receiveService
  split
  · exact h
  · cases hread : l.readExact timeout false lengthSize with
    | mk answer l₁ =>
        have h₁ : Quiet (l.readExact timeout false lengthSize).2.stream.inflow := by
          rw [inflow_readExact]
          exact h.fill _ _
        rw [hread] at h₁
        cases answer with
        | error e => exact h₁
        | ok head =>
            dsimp only
            split
            · exact h₁
            · rw [inflow_readExact]
              exact h₁.fill _ _

variable {s : CallStep NetworkLink} {steps : List (CallStep NetworkLink)}

/-- Calls on the realtime channel do not touch the stream. -/
theorem service_of_realtime (hmade : s.Made) (h : s.call.channel = .realtime) :
    s.after.stream = s.before.stream ∧ s.after.outOfStep = s.before.outOfStep := by
  obtain ⟨before, call, after⟩ := s
  cases call with
  | send c m answer =>
      obtain rfl : c = .realtime := h
      have hsend : before.sendRealtime m = (answer, after) := hmade
      obtain ⟨outcomes, transmitted, hafter⟩ := before.sendRealtime_changes m
      rw [hsend] at hafter
      obtain rfl : after = _ := hafter
      exact ⟨rfl, rfl⟩
  | receive c timeout answer =>
      obtain rfl : c = .realtime := h
      have hreceive : before.receiveRealtime timeout = (answer, after) := hmade
      obtain ⟨left, peer, now, log, hafter⟩ := before.awaitPeer_changes timeout
        (1000 * before.now + timeout.nanos) before.socket.incoming
      rw [← receiveRealtime, hreceive] at hafter
      obtain rfl : after = _ := hafter
      exact ⟨rfl, rfl⟩

/-- Once the stream is out of step it stays so, and every service call is refused. -/
theorem closed_of_outOfStep (hmade : s.Made) (h : s.before.outOfStep = true) :
    s.after.outOfStep = true ∧ (s.call.channel = .service → s.call.error? = some .closed) := by
  cases hchannel : s.call.channel with
  | realtime => exact ⟨(service_of_realtime hmade hchannel).2.trans h, nofun⟩
  | service =>
      obtain ⟨before, call, after⟩ := s
      cases call with
      | send c m answer =>
          obtain rfl : c = .service := hchannel
          have hsend : before.sendService m = (answer, after) := hmade
          have hclosed := (before.service_of_outOfStep h m ⟨0⟩).1
          obtain ⟨rfl, rfl⟩ := Prod.mk.inj (hclosed.symm.trans hsend)
          exact ⟨h, fun _ => rfl⟩
      | receive c timeout answer =>
          obtain rfl : c = .service := hchannel
          have hreceive : before.receiveService timeout = (answer, after) := hmade
          have hclosed := (before.service_of_outOfStep h [] timeout).2
          obtain ⟨rfl, rfl⟩ := Prod.mk.inj (hclosed.symm.trans hreceive)
          exact ⟨h, fun _ => rfl⟩

theorem closed_of_traffic (h : Traffic l steps l') (hlost : l.outOfStep = true) :
    ∀ s ∈ steps, s.call.channel = .service → s.call.error? = some .closed := by
  induction h with
  | none => simp
  | more made _ ih =>
      obtain ⟨hafter, hclosed⟩ := closed_of_outOfStep made hlost
      exact List.forall_mem_cons.2 ⟨hclosed, ih hafter⟩

theorem receives_of_made {answer : Except LinkError Bytes} (hmade : s.Made)
    (hcall : s.call = .receive .service timeout answer) (hstep : s.before.outOfStep = false) :
    let r := (burst (patience timeout) s.before.stream.inflow).reception timeout
    answer = r.answer ∧ s.before.stream.unread = r.taken ++ s.after.stream.unread ∧
      s.after.outOfStep = r.lost := by
  obtain ⟨before, call, after⟩ := s
  subst hcall
  have hreceive : before.receiveService timeout = (answer, after) := hmade
  have hreception := @receiveService_eq before _ timeout rfl hstep
  rwa [hreceive] at hreception

theorem inflow_of_send {c : Channel} {answer : Except LinkError Unit} (hmade : s.Made)
    (hcall : s.call = .send c m answer) : s.after.stream.inflow = s.before.stream.inflow := by
  cases c with
  | realtime => rw [(service_of_realtime hmade (by rw [hcall]; rfl)).1]
  | service =>
      obtain ⟨before, call, after⟩ := s
      subst hcall
      have hsend : before.sendService m = (answer, after) := hmade
      obtain ⟨outcomes, written, hafter⟩ := before.sendService_changes m
      rw [hsend] at hafter
      obtain rfl : after = _ := hafter
      rfl

theorem quiet_of_made (hmade : s.Made) (h : Quiet s.before.stream.inflow) :
    Quiet s.after.stream.inflow := by
  cases hcall : s.call with
  | send c m answer => rwa [inflow_of_send hmade hcall]
  | receive c timeout answer =>
      cases c with
      | realtime => rwa [(service_of_realtime hmade (by rw [hcall]; rfl)).1]
      | service =>
          obtain ⟨before, call, after⟩ := s
          subst hcall
          have hreceive : before.receiveService timeout = (answer, after) := hmade
          have hquiet := quiet_receiveService timeout h
          rwa [hreceive] at hquiet

/-- A receive without a whole frame takes nothing, or leaves the reader out of step, or leaves
nothing to read. -/
theorem shortage_of_quiet (hquiet : Quiet l.stream.inflow)
    (hb : burst (patience timeout) l.stream.inflow = b)
    (htaken : l.stream.unread = b.bytes ++ l'.stream.unread)
    (hlost : l'.outOfStep = (b.shortage timeout false).2) :
    l'.stream.unread = l.stream.unread ∨ l'.outOfStep = true ∨ l'.stream.unread = [] := by
  have hall (hstop : b.stop ≠ .pause) : l'.stream.unread = [] := by
    rw [← hb] at hstop
    have hbytes := hquiet.bytes_burst hstop
    rw [hb] at hbytes
    rw [hbytes] at htaken
    exact List.self_eq_append_right.1 htaken
  unfold Burst.shortage at hlost
  cases hstop : b.stop with
  | endOfStream => exact .inr (.inr (hall (by simp [hstop])))
  | failed e => exact .inr (.inr (hall (by simp [hstop])))
  | pause =>
      rw [hstop] at hlost
      cases hbytes : b.bytes with
      | nil =>
          rw [hbytes, List.nil_append] at htaken
          exact .inl htaken.symm
      | cons first more =>
          rw [hbytes] at hlost
          exact .inr (.inl hlost)

/-- What one call takes off a quiet stream: the first frame, or nothing, unless no frame can be
received any more. -/
theorem frames_of_made (hmade : s.Made) (hquiet : Quiet s.before.stream.inflow) :
    (∃ m, s.call.received? .service = some m ∧ m.length ≤ maxServiceMessage ∧
      s.before.stream.unread = frame m ++ s.after.stream.unread) ∨
    s.call.received? .service = none ∧ (s.after.stream.unread = s.before.stream.unread ∨
      s.after.outOfStep = true ∨ s.after.stream.unread = []) := by
  by_cases hchannel : s.call.channel = .service
  · cases hstep : s.before.outOfStep with
    | true =>
        obtain ⟨hafter, hclosed⟩ := closed_of_outOfStep hmade hstep
        exact .inr ⟨LinkCall.received?_of_error (hclosed hchannel) _, .inr (.inl hafter)⟩
    | false =>
        cases hcall : s.call with
        | send c m answer =>
            have hunread : s.after.stream.unread = s.before.stream.unread := by
              rw [Stream.unread, Stream.unread, inflow_of_send hmade hcall]
            exact .inr ⟨rfl, .inl hunread⟩
        | receive c timeout answer =>
            rw [hcall] at hchannel
            obtain rfl : c = .service := hchannel
            obtain ⟨rfl, htaken, hlost⟩ := receives_of_made hmade hcall hstep
            generalize hb : burst (patience timeout) s.before.stream.inflow = b at htaken hlost ⊢
            unfold Burst.reception at htaken hlost ⊢
            cases hfront : front b.bytes with
            | message m rest =>
                rw [hfront] at htaken
                exact .inl ⟨m, rfl, (front_eq_message_iff.1 hfront).1, htaken⟩
            | tooLong size =>
                rw [hfront] at hlost
                exact .inr ⟨rfl, .inr (.inl hlost)⟩
            | part =>
                rw [hfront] at htaken hlost
                exact .inr ⟨rfl, shortage_of_quiet hquiet hb htaken hlost⟩
  · refine .inr ⟨LinkCall.received?_of_channel_ne hchannel, .inl ?_⟩
    have hrealtime : s.call.channel = .realtime := by
      cases h : s.call.channel with
      | service => exact absurd h hchannel
      | realtime => rfl
    rw [(service_of_realtime hmade hrealtime).1]

theorem received_of_outOfStep (h : Traffic l steps l') (hlost : l.outOfStep = true) :
    receivedOn .service steps = [] := by
  refine List.filterMap_eq_nil_iff.2 fun s hs => ?_
  by_cases hchannel : s.call.channel = .service
  · exact LinkCall.received?_of_error (closed_of_traffic h hlost s hs hchannel) _
  · exact LinkCall.received?_of_channel_ne hchannel

theorem received_prefix_framesIn (h : Traffic l steps l') (hquiet : Quiet l.stream.inflow) :
    receivedOn .service steps <+: framesIn l.stream.unread := by
  induction h with
  | none => exact List.nil_prefix
  | @more s steps l' made rest ih =>
      have hrest := ih (quiet_of_made made hquiet)
      rw [receivedOn_cons]
      rcases frames_of_made made hquiet with ⟨m, hm, hsize, hunread⟩ | ⟨hnone, hafter⟩
      · rw [hm, hunread, framesIn_frame m _ hsize]
        exact (List.prefix_cons_inj m).2 hrest
      · rw [hnone, Option.toList_none, List.nil_append]
        rcases hafter with hsame | hlost | hnothing
        · rwa [← hsame]
        · rw [received_of_outOfStep rest hlost]
          exact List.nil_prefix
        · rw [hnothing, framesIn_nil] at hrest
          exact hrest.trans List.nil_prefix

structure FollowFrames (l : NetworkLink) (steps : List (CallStep NetworkLink)) : Prop where
  /-- The messages received are the first ones of the stream, each of them whole. -/
  messages : receivedOn .service steps <+: framesIn l.stream.unread
  bytes : (receivedOn .service steps).flatMap frame <+: l.stream.unread
  /-- What a receive takes, what it answers and whether it leaves the reader out of step. -/
  receives : ∀ s ∈ steps, ∀ timeout answer, s.call = .receive .service timeout answer →
    s.before.outOfStep = false →
      let r := (burst (patience timeout) s.before.stream.inflow).reception timeout
      answer = r.answer ∧ s.before.stream.unread = r.taken ++ s.after.stream.unread ∧
        s.after.outOfStep = r.lost
  /-- A receive that times out has taken nothing. -/
  idle : ∀ s ∈ steps, ∀ timeout waited,
    s.call = .receive .service timeout (.error (.timeout waited)) →
      s.after.stream.unread = s.before.stream.unread ∧ s.after.outOfStep = s.before.outOfStep
  /-- Behind a call that leaves the reader out of step every service call is refused. -/
  closed : steps.Pairwise fun s t => s.after.outOfStep = true → t.call.channel = .service →
    t.call.error? = some .closed

/-- Only a pause before the first byte makes a receive time out. -/
theorem idle_of_reception {limit : Nat} {inflow : List (Arrival Inflow)} {waited : Duration}
    (hb : burst limit inflow = b) (h : (b.reception timeout).answer = .error (.timeout waited)) :
    (b.reception timeout).taken = [] ∧ (b.reception timeout).lost = false := by
  unfold Burst.reception at h ⊢
  cases hfront : front b.bytes with
  | message => rw [hfront] at h; cases h
  | tooLong => rw [hfront] at h; cases h
  | part =>
      rw [hfront] at h
      unfold Burst.shortage at h ⊢
      cases hstop : b.stop with
      | endOfStream => rw [hstop] at h; cases h
      | failed e =>
          rw [hstop] at h
          have he : e.stop = .failed e := stop_of_burst_failed (by rw [hb, hstop])
          have htimeout := (IoError.onRead_of_failed he timeout).2
          rw [show e.onRead timeout = .timeout waited from Except.error.inj h] at htimeout
          cases htimeout
      | pause =>
          rw [hstop] at h
          cases hbytes : b.bytes with
          | nil => exact ⟨rfl, rfl⟩
          | cons first more =>
              rw [hbytes] at h
              cases h

theorem idle_of_made {waited : Duration} (hmade : s.Made)
    (hcall : s.call = .receive .service timeout (.error (.timeout waited))) :
    s.after.stream.unread = s.before.stream.unread ∧ s.after.outOfStep = s.before.outOfStep := by
  cases hstep : s.before.outOfStep with
  | true =>
      have hclosed := (closed_of_outOfStep hmade hstep).2 (by rw [hcall]; rfl)
      rw [hcall] at hclosed
      cases hclosed
  | false =>
      obtain ⟨hanswer, htaken, hlost⟩ := receives_of_made hmade hcall hstep
      obtain ⟨hnothing, hkept⟩ := idle_of_reception rfl hanswer.symm
      rw [hnothing, List.nil_append] at htaken
      exact ⟨htaken.symm, hlost.trans hkept⟩

theorem closed_behind_loss (h : Traffic l steps l') :
    steps.Pairwise fun s t => s.after.outOfStep = true → t.call.channel = .service →
      t.call.error? = some .closed := by
  induction h with
  | none => exact .nil
  | more made rest ih =>
      exact List.pairwise_cons.2 ⟨fun t ht hlost => closed_of_traffic rest hlost t ht, ih⟩

/-- Whatever calls are made on a link and however its stream was cut and held up, the messages
that they receive on the service channel are the first frames of the stream. -/
theorem service_messages_first_frames (h : Traffic l steps l') (hquiet : Quiet l.stream.inflow) :
    FollowFrames l steps := by
  have hmessages := received_prefix_framesIn h hquiet
  refine ⟨hmessages, ?_, ?_, ?_, closed_behind_loss h⟩
  · obtain ⟨others, hothers⟩ := hmessages
    refine List.IsPrefix.trans ?_ (flatMap_framesIn_front l.stream.unread)
    rw [← hothers, List.flatMap_append]
    exact List.prefix_append _ _
  · intro s hs timeout answer hcall hstep
    exact receives_of_made (h.made_of_mem hs) hcall hstep
  · intro s hs timeout waited hcall
    exact idle_of_made (h.made_of_mem hs) hcall

/-- Two frames come in five chunks, with a signal and a pause between them. The third frame is held
up inside, and what comes later is not taken for a frame. -/
theorem service_messages_first_frames_of_late_body :
    let inflow : List (Arrival Inflow) := [⟨10, .chunk 2 [0]⟩, ⟨0, .failed ⟨.interrupted, ""⟩⟩,
      ⟨5, .chunk 0 [0, 9]⟩, ⟨0, .chunk 8 []⟩, ⟨0, .failed .blocked⟩, ⟨0, .chunk 0 [0, 0]⟩,
      ⟨0, .chunk 0 [3, 0, 0, 0, 7]⟩, ⟨2000, .chunk 1 [0, 0]⟩, ⟨0, .endOfStream⟩,
      ⟨0, .failed ⟨.connectionReset, ""⟩⟩]
    let timeout : Duration := .ofMillis 1
    let after (l : NetworkLink) := (Link.receive .service timeout l).2
    let first : NetworkLink := { blocking with stream := ⟨inflow, [], []⟩ }
    let second := after first
    let third := after second
    let fourth := after third
    let lost := after fourth
    let steps : List (CallStep NetworkLink) :=
      [⟨first, .receive .service timeout (.ok [9, 8]), second⟩,
        ⟨second, .receive .service timeout (.error (.timeout timeout)), third⟩,
        ⟨third, .receive .service timeout (.ok []), fourth⟩,
        ⟨fourth, .receive .service timeout (.error .closed), lost⟩,
        ⟨lost, .send .service [5] (.error .closed), lost⟩]
    Traffic first steps lost ∧ Quiet first.stream.inflow ∧ FollowFrames first steps := by
  intro inflow timeout after first second third fourth lost steps
  have hmessage : (Link.receive .service timeout first).1 = .ok [9, 8] := by decide
  have hpause : (Link.receive .service timeout second).1 = .error (.timeout timeout) := by decide
  have hempty : (Link.receive .service timeout third).1 = .ok [] := by decide
  have hcut : (Link.receive .service timeout fourth).1 = .error .closed := by decide
  have hlost : lost.outOfStep = true := by decide
  have htraffic : Traffic first steps lost :=
    .of_receive (Prod.ext hmessage rfl) <| .of_receive (Prod.ext hpause rfl) <|
      .of_receive (Prod.ext hempty rfl) <| .of_receive (Prod.ext hcut rfl) <|
        .of_send (service_of_outOfStep lost hlost [5] timeout).1 (.none lost)
  have hquiet : Quiet first.stream.inflow := by decide
  exact ⟨htraffic, hquiet, service_messages_first_frames htraffic hquiet⟩

end NetworkLink

end ArmSession.Net
