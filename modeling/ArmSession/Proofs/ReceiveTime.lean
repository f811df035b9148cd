import ArmSession.Proofs.Interruptions

/-!
# How long a receive takes

A receive on the realtime channel keeps to its timeout, up to the microsecond that a socket waits at
least: what it drops does not prolong it. On the service channel the timeout is for each read, and
any byte may take a read of its own. So what bounds a receive there is the timeout once for every
byte that it takes and every signal that it meets, and once more if it fails, and a peer that sends
its bytes one by one makes a receive last as long as that.
-/

namespace ArmSession.Net

open Wire

/-- A span in whole microseconds, of which a socket waits for one at least. -/
def ticks (timeout : Duration) : Nat := max 1 ((timeout.nanos + 999) / 1000)

instance : DecidablePred Inflow.IsSignal := fun event =>
  match event with
  | .chunk _ _ => .isFalse id
  | .endOfStream => .isFalse id
  | .failed e => inferInstanceAs (Decidable (e.kind = .interrupted))

/-- The most reads that can get something or be cut short. -/
def reads (inflow : List (Arrival Inflow)) : Nat :=
  (pending inflow).length + inflow.countP fun a => a.event.IsSignal

theorem reads_cons (a : Arrival Inflow) (rest : List (Arrival Inflow)) : reads (a :: rest) =
    a.event.bytes.length + (if a.event.IsSignal then 1 else 0) + reads rest := by
  unfold reads
  rw [pending_cons, List.length_append, List.countP_cons]
  simp only [decide_eq_true_eq]
  omega

theorem reads_leftover (bs : Bytes) (rest : List (Arrival Inflow)) :
    reads (leftover bs ++ rest) = bs.length + reads rest := by
  cases bs with
  | nil => simp [leftover]
  | cons b bs => simp [leftover, reads_cons, Inflow.bytes, Inflow.IsSignal]

theorem reads_afterEnd (rest : List (Arrival Inflow)) : reads (afterEnd rest) = reads rest := by
  cases rest <;> rfl

/-- The reads of which a filling has nothing. -/
def FillEnd.vain : FillEnd → Nat
  | full => 0
  | _ => 1

/-- Each read of a filling gets a byte or is cut short, but for the last of one that fails. -/
theorem elapsed_fill_le (limit n : Nat) (inflow : List (Arrival Inflow)) :
    (fill limit n inflow).elapsed + limit * reads (fill limit n inflow).inflow ≤
      limit * (reads inflow + (fill limit n inflow).ending.vain) := by
  induction inflow generalizing n with
  | nil => cases n <;> simp [fill, FillEnd.vain, reads, pending]
  | cons a rest ih =>
      cases n with
      | zero => simp [fill, FillEnd.vain]
      | succ n =>
          obtain ⟨wait, event⟩ := a
          unfold fill
          by_cases hw : limit < wait
          · simp only [hw, if_true, FillEnd.vain, reads_cons, Nat.mul_add]
            omega
          · simp only [hw, if_false, reads_cons, Nat.mul_add]
            cases event with
            | chunk first more =>
                by_cases hm : more.length ≤ n
                · have hrest := ih (n - more.length)
                  simp only [hm, if_true, Filling.after, Inflow.bytes, Inflow.IsSignal,
                    List.length_cons, Nat.mul_add] at hrest ⊢
                  omega
                · -- The bytes that are left over are reads still to come.
                  simp only [hm, if_false, Inflow.bytes, Inflow.IsSignal, List.length_cons,
                    reads_leftover, List.length_drop, FillEnd.vain, Nat.mul_add]
                  have hdrop := Nat.mul_le_mul_left limit (Nat.sub_le more.length n)
                  omega
            | endOfStream =>
                simp only [Inflow.bytes, Inflow.IsSignal, reads_afterEnd, FillEnd.vain,
                  List.length_nil]
                omega
            | failed e =>
                by_cases he : e.kind = .interrupted
                · have hrest := ih (n + 1)
                  simp only [he, if_true, Filling.after, Inflow.bytes, Inflow.IsSignal,
                    List.length_nil, Nat.mul_add] at hrest ⊢
                  omega
                · simp only [he, if_false, Inflow.bytes, Inflow.IsSignal, FillEnd.vain,
                    List.length_nil]
                  omega

namespace NetworkLink

def vain : Except LinkError Bytes → Nat
  | .ok _ => 0
  | .error _ => 1

variable (l : NetworkLink) (timeout : Duration)

/-- A call that pays with one timeout for each read which gets something or is cut short. -/
def PaysForReads (l : NetworkLink) (timeout : Duration)
    (result : Except LinkError Bytes × NetworkLink) : Prop :=
  result.2.now + patience timeout * reads result.2.stream.inflow ≤
    l.now + patience timeout * (reads l.stream.inflow + vain result.1)

theorem readExact_pays (inFrame : Bool) (n : Nat) :
    PaysForReads l timeout (l.readExact timeout inFrame n) := by
  have hfill := elapsed_fill_le (patience timeout) n l.stream.inflow
  unfold PaysForReads readExact
  dsimp only
  generalize fill (patience timeout) n l.stream.inflow = f at hfill
  cases hending : f.ending with
  | full =>
      simp only [hending, FillEnd.vain] at hfill
      simp only [vain]
      omega
  | endOfStream =>
      simp only [hending, FillEnd.vain] at hfill
      simp only [vain]
      omega
  | failed e =>
      simp only [hending, FillEnd.vain] at hfill
      dsimp only
      split
      · simp only [vain, noting]
        omega
      · simp only [vain]
        omega

theorem receiveService_pays : PaysForReads l timeout (l.receiveService timeout) := by
  unfold receiveService
  split
  · simp only [PaysForReads, vain, Nat.mul_add]
    omega
  · have hhead := l.readExact_pays timeout false lengthSize
    cases hread : l.readExact timeout false lengthSize with
    | mk answer l₁ =>
        rw [hread] at hhead
        cases answer with
        | error e => exact hhead
        | ok head =>
            dsimp only
            split
            · simp only [PaysForReads, vain, Nat.mul_add] at hhead ⊢
              omega
            · have hbody := l₁.readExact_pays timeout true (ofLittleEndian head)
              unfold PaysForReads at hhead hbody ⊢
              simp only [vain, Nat.mul_add] at hhead hbody ⊢
              omega

/-- Bytes that come one by one, each as late as a read waits for it. -/
def drip (limit : Nat) (bs : Bytes) : List (Arrival Inflow) :=
  bs.map fun b => ⟨limit, .chunk b []⟩

theorem fill_drip (limit : Nat) (bs : Bytes) (rest : List (Arrival Inflow)) :
    fill limit bs.length (drip limit bs ++ rest) = ⟨.full, bs, rest, limit * bs.length⟩ := by
  induction bs with
  | nil => cases rest <;> rfl
  | cons b bs ih =>
      have hcons : drip limit (b :: bs) ++ rest =
          ⟨limit, .chunk b []⟩ :: (drip limit bs ++ rest) := rfl
      rw [hcons, List.length_cons, fill]
      simp only [Nat.lt_irrefl, if_false, List.length_nil, Nat.zero_le, if_true, Nat.sub_zero, ih,
        Filling.after]
      rw [Nat.mul_add, Nat.mul_one, Nat.add_comm limit]
      rfl

theorem readExact_drip {bs : Bytes} {rest : List (Arrival Inflow)}
    (h : l.stream.inflow = drip (patience timeout) bs ++ rest) (inFrame : Bool) :
    l.readExact timeout inFrame bs.length =
      (.ok bs, { l.onStream rest with now := l.now + patience timeout * bs.length }) := by
  rw [readExact, h, fill_drip]
  rfl

/-- A receive goes on to the end of a message whose bytes come one by one. -/
theorem receiveService_drip (hstep : l.outOfStep = false) {m : Bytes}
    (hm : m.length ≤ maxServiceMessage) :
    (l.onStream (drip (patience timeout) (frame m))).receiveService timeout =
      (.ok m, { l.onStream [] with now := l.now + patience timeout * (frame m).length }) := by
  have hsplit : drip (patience timeout) (frame m) =
      drip (patience timeout) (littleEndian lengthSize m.length) ++ drip (patience timeout) m :=
    List.map_append
  have hsize : ofLittleEndian (littleEndian lengthSize m.length) = m.length := by
    rw [ofLittleEndian_littleEndian]
    exact Nat.mod_eq_of_lt (Nat.lt_of_le_of_lt hm (by decide))
  have hhead := readExact_drip (l.onStream (drip (patience timeout) (frame m))) timeout hsplit false
  rw [length_littleEndian] at hhead
  rw [receiveService, if_neg (by simp [onStream, hstep]), hhead]
  dsimp only
  rw [hsize, if_neg (Nat.not_lt.2 hm),
    readExact_drip _ timeout (List.append_nil _).symm true, length_frame, Nat.mul_add,
    ← Nat.add_assoc]
  rfl

/-- What is dropped takes its time from what is left. -/
theorem now_awaitPeer_le (deadline : Nat) (incoming : List (Arrival Incoming)) :
    (l.awaitPeer timeout deadline incoming).2.now ≤ max (l.now + 1) ((deadline + 999) / 1000) := by
  have hlimit (l : NetworkLink) : l.now + patience (l.remaining deadline) ≤
      max (l.now + 1) ((deadline + 999) / 1000) := by
    unfold patience remaining
    dsimp only
    omega
  induction incoming generalizing l with
  | nil => exact hlimit l
  | cons a rest ih =>
      by_cases early : a.wait ≤ patience (l.remaining deadline)
      · have hread : l.now + a.wait ≤ max (l.now + 1) ((deadline + 999) / 1000) :=
          Nat.le_trans (Nat.add_le_add_left early l.now) (hlimit l)
        cases event : a.event with
        | failed e =>
            rw [awaitPeer_of_failed early event]
            exact hread
        | datagram d =>
            obtain ⟨hfirst, hpeer, hdropped⟩ := awaitPeer_of_datagram timeout early event rest
            cases known : l.peer with
            | none =>
                rw [hfirst known]
                exact hread
            | some peer =>
                by_cases stranger : peer = d.far
                · subst stranger
                  rw [hpeer known]
                  exact hread
                · rw [hdropped peer known stranger]
                  split
                  · exact hread
                  · next time =>
                      -- The next read begins before the deadline, where its bound is the same.
                      have hrest := ih (l.dropping a d)
                      have htime : 1000 * (l.now + a.wait) < deadline := Nat.not_le.1 time
                      rw [show (l.dropping a d).now = l.now + a.wait from rfl] at hrest
                      omega
      · rw [awaitPeer_of_late (Nat.not_le.1 early)]
        exact hlimit l

theorem now_receiveRealtime_le :
    (l.receiveRealtime timeout).2.now ≤ l.now + ticks timeout := by
  have hwait := l.now_awaitPeer_le timeout (l.deadline timeout) l.socket.incoming
  have hdeadline : max (l.now + 1) ((l.deadline timeout + 999) / 1000) = l.now + ticks timeout := by
    unfold deadline ticks
    omega
  rwa [hdeadline] at hwait

/-- Where no signal comes, a receive that answers that nothing came has made a single read. -/
theorem now_receiveService_of_timeout {waited : Duration} (hstep : l.outOfStep = false)
    (hsignal : ∀ a ∈ l.stream.inflow, ¬a.event.IsSignal)
    (hanswer : (l.receiveService timeout).1 = .error (.timeout waited)) :
    (l.receiveService timeout).2.now ≤ l.now + patience timeout := by
  obtain ⟨hreception, htaken, -⟩ := @receiveService_eq l _ timeout rfl hstep
  rw [(idle_of_reception rfl (hreception.symm.trans hanswer)).1, List.nil_append] at htaken
  have hbytes : reads l.stream.inflow = l.stream.unread.length := by
    rw [reads, List.countP_eq_zero.2 (by simpa using hsignal)]
    rfl
  have hleft : l.stream.unread.length ≤ reads (l.receiveService timeout).2.stream.inflow := by
    rw [htaken]
    exact Nat.le_add_right _ _
  have hpays := l.receiveService_pays timeout
  have hkept := Nat.mul_le_mul_left (patience timeout) hleft
  simp only [PaysForReads, hanswer, vain, hbytes, Nat.mul_add] at hpays
  omega

structure ReceiveTime (timeout : Duration) (l : NetworkLink) : Prop where
  realtime : (l.receiveRealtime timeout).2.now ≤ l.now + ticks timeout
  service : PaysForReads l timeout (l.receiveService timeout)
  idle : l.outOfStep = false → (∀ a ∈ l.stream.inflow, ¬a.event.IsSignal) → ∀ waited,
    (l.receiveService timeout).1 = .error (.timeout waited) →
      (l.receiveService timeout).2.now ≤ l.now + patience timeout
  /-- No less than one timeout for each byte is enough for the service channel. -/
  attained : l.outOfStep = false → ∀ m, m.length ≤ maxServiceMessage →
    (l.onStream (drip (patience timeout) (frame m))).receiveService timeout =
      (.ok m, { l.onStream [] with now := l.now + patience timeout * (frame m).length })

/-- A receive on the realtime channel takes its timeout at most, whatever it drops. One on the
service channel takes up to a timeout for each read that it makes. -/
theorem receive_time (l : NetworkLink) (timeout : Duration) : ReceiveTime timeout l where
  realtime := l.now_receiveRealtime_le timeout
  service := l.receiveService_pays timeout
  idle hstep hsignal _ hanswer := l.now_receiveService_of_timeout timeout hstep hsignal hanswer
  attained hstep _ hm := l.receiveService_drip timeout hstep hm

/-- A message of one byte keeps a receive for three times as long as it is to wait. -/
theorem drip_outlasts_timeout :
    let timeout : Duration := .ofMillis 1
    let l : NetworkLink := { listening [] with stream := ⟨drip 600 [1, 0, 0, 0, 7], [], []⟩ }
    1000 ≤ timeout.nanos ∧ (l.receiveService timeout).1 = .ok [7] ∧
      1000 * ((l.receiveService timeout).2.now - l.now) = 3 * timeout.nanos := by
  decide

end NetworkLink

end ArmSession.Net
