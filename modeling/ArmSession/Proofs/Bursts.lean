import ArmSession.Net.Stream

/-!
# Bursts

A burst is what a stream yields without a pause: bytes that reads get one after the other, and what
ends them. Interruptions leave no trace in it. What a filling gets and how it ends depends on the
burst alone, so it does not matter how the bytes were cut into chunks.
-/

namespace ArmSession.Net

/-- What ends a burst. A pause is a read that runs out of time. -/
inductive Stop
  | pause
  | endOfStream
  | failed (e : IoError)
deriving DecidableEq

def IoError.stop (e : IoError) : Stop :=
  match e.kind with
  | .wouldBlock | .timedOut => .pause
  | _ => .failed e

theorem IoError.onRead_of_pause {e : IoError} (h : e.stop = .pause) (timeout : Duration) :
    e.onRead timeout = .timeout timeout := by
  unfold stop at h
  unfold onRead
  split at h
  · next hkind => rw [hkind]
  · next hkind => rw [hkind]
  · cases h

theorem IoError.onRead_of_failed {e cause : IoError} (h : e.stop = .failed cause)
    (timeout : Duration) : cause = e ∧ (e.onRead timeout).isTimeout = false := by
  unfold stop at h
  split at h
  · cases h
  · cases h
  · next hblock htimed =>
      cases h
      refine ⟨rfl, ?_⟩
      unfold onRead onStream
      cases hkind : e.kind <;> first | rfl | exact absurd hkind hblock | exact absurd hkind htimed

def FillEnd.stop? : FillEnd → Option Stop
  | full => none
  | endOfStream => some .endOfStream
  | failed e => some e.stop

structure Burst where
  bytes : Bytes
  stop : Stop
deriving DecidableEq

namespace Burst

def after (chunk : Bytes) (b : Burst) : Burst := { b with bytes := chunk ++ b.bytes }

def drop (n : Nat) (b : Burst) : Burst := { b with bytes := b.bytes.drop n }

end Burst

def burst (limit : Nat) : List (Arrival Inflow) → Burst
  | [] => ⟨[], .pause⟩
  | a :: rest =>
    if limit < a.wait then ⟨[], .pause⟩
    else match a.event with
      | .chunk first more => (burst limit rest).after (first :: more)
      | .endOfStream => ⟨[], .endOfStream⟩
      | .failed e => if e.kind = .interrupted then burst limit rest else ⟨[], e.stop⟩

/-- The bytes that are laid out, with or without pauses. -/
def pending (inflow : List (Arrival Inflow)) : Bytes := inflow.flatMap fun a => a.event.bytes

theorem pending_cons (a : Arrival Inflow) (rest : List (Arrival Inflow)) :
    pending (a :: rest) = a.event.bytes ++ pending rest := List.flatMap_cons

theorem pending_leftover (bs : Bytes) (rest : List (Arrival Inflow)) :
    pending (leftover bs ++ rest) = bs ++ pending rest := by
  cases bs <;> simp [leftover, pending, Inflow.bytes]

theorem pending_afterEnd (rest : List (Arrival Inflow)) :
    pending (afterEnd rest) = pending rest := by
  cases rest <;> rfl

theorem burst_leftover (limit : Nat) (bs : Bytes) (rest : List (Arrival Inflow)) :
    burst limit (leftover bs ++ rest) = (burst limit rest).after bs := by
  cases bs <;> simp [leftover, burst, Burst.after]

theorem stop_of_burst_failed {limit : Nat} {inflow : List (Arrival Inflow)} {e : IoError}
    (h : (burst limit inflow).stop = .failed e) : e.stop = .failed e := by
  induction inflow with
  | nil => cases h
  | cons a rest ih =>
      rw [burst] at h
      by_cases hw : limit < a.wait
      · simp [hw] at h
      · simp only [hw, if_false] at h
        cases hevent : a.event with
        | chunk first more =>
            rw [hevent] at h
            exact ih h
        | endOfStream =>
            rw [hevent] at h
            cases h
        | failed cause =>
            rw [hevent] at h
            by_cases hi : cause.kind = .interrupted
            · exact ih (by simpa [hi] using h)
            · have hstop : cause.stop = .failed e := by simpa [hi] using h
              obtain ⟨rfl, -⟩ := IoError.onRead_of_failed hstop .zero
              exact hstop

/-- A filling gets the first bytes of the burst. If there are enough it leaves the others, and if
not it ends as the burst does. -/
theorem fill_eq (limit n : Nat) (inflow : List (Arrival Inflow)) :
    (fill limit n inflow).bytes = (burst limit inflow).bytes.take n ∧
      (n ≤ (burst limit inflow).bytes.length → (fill limit n inflow).ending = .full ∧
        burst limit (fill limit n inflow).inflow = (burst limit inflow).drop n) ∧
      ((burst limit inflow).bytes.length < n →
        (fill limit n inflow).ending.stop? = some (burst limit inflow).stop) := by
  induction inflow generalizing n with
  | nil => cases n <;> simp [fill, burst, FillEnd.stop?, IoError.stop, IoError.blocked, Burst.drop]
  | cons a rest ih =>
      cases n with
      | zero => simp [fill, Burst.drop]
      | succ n =>
          unfold fill
          rw [burst]
          by_cases hw : limit < a.wait
          · simp [hw, FillEnd.stop?, IoError.stop, IoError.blocked]
          · simp only [hw, if_false]
            cases a.event with
            | chunk first more =>
                obtain ⟨hbytes, hfull, hshort⟩ := ih (n - more.length)
                by_cases hm : more.length ≤ n
                · simp only [hm, if_true, Filling.after, Burst.after, hbytes]
                  have hlength : (first :: more).length ≤ n + 1 := Nat.succ_le_succ hm
                  refine ⟨?_, fun h => ?_, fun h => ?_⟩
                  · rw [List.take_append, List.length_cons, Nat.add_sub_add_right,
                      List.take_of_length_le hlength]
                  · simp only [List.length_append, List.length_cons] at h
                    obtain ⟨hending, hburst⟩ := hfull (by omega)
                    refine ⟨hending, ?_⟩
                    rw [hburst, Burst.drop, Burst.drop, List.drop_append, List.length_cons,
                      Nat.add_sub_add_right, List.drop_of_length_le hlength, List.nil_append]
                  · simp only [List.length_append, List.length_cons] at h
                    exact hshort (by omega)
                · -- The chunk alone is enough, and what it has left over begins the next burst.
                  simp only [hm, if_false, Burst.after]
                  refine ⟨?_, fun _ => ⟨trivial, ?_⟩, fun h => ?_⟩
                  · rw [List.cons_append, List.take_succ_cons,
                      List.take_append_of_le_length (by omega)]
                  · rw [burst_leftover, Burst.drop, Burst.after, List.cons_append,
                      List.drop_succ_cons, List.drop_append_of_le_length (by omega)]
                  · simp only [List.length_append, List.length_cons] at h
                    omega
            | endOfStream => simp [FillEnd.stop?]
            | failed e =>
                by_cases he : e.kind = .interrupted
                · simpa [he, Filling.after] using ih (n + 1)
                · simp [he, FillEnd.stop?]

/-- What a filling gets is gone, and nothing else. -/
theorem pending_fill (limit n : Nat) (inflow : List (Arrival Inflow)) :
    pending inflow = (fill limit n inflow).bytes ++ pending (fill limit n inflow).inflow := by
  induction inflow generalizing n with
  | nil => cases n <;> rfl
  | cons a rest ih =>
      cases n with
      | zero => rfl
      | succ n =>
          obtain ⟨wait, event⟩ := a
          unfold fill
          rw [pending_cons]
          by_cases hw : limit < wait
          · simp [hw, pending_cons]
          · simp only [hw, if_false]
            cases event with
            | chunk first more =>
                by_cases hm : more.length ≤ n
                · simp only [hm, if_true, Filling.after, Inflow.bytes]
                  rw [ih (n - more.length), List.append_assoc]
                · simp only [hm, if_false, Inflow.bytes]
                  rw [pending_leftover, List.cons_append, List.cons_append, ← List.append_assoc,
                    List.take_append_drop]
            | endOfStream => simp [Inflow.bytes, pending_afterEnd]
            | failed e =>
                by_cases he : e.kind = .interrupted
                · simpa [he, Filling.after, Inflow.bytes] using ih (n + 1)
                · simp [he, Inflow.bytes]

/-- The stream has ended, or failed for another reason than time or a signal. -/
def Inflow.isFinal : Inflow → Bool
  | chunk _ _ => false
  | endOfStream => true
  | failed e => e.kind ≠ .interrupted && e.stop ≠ .pause

/-- No bytes come behind an event that is final. -/
def Quiet (inflow : List (Arrival Inflow)) : Prop :=
  inflow.Pairwise fun a b => a.event.isFinal = true → b.event.bytes = []

instance (inflow : List (Arrival Inflow)) : Decidable (Quiet inflow) :=
  inferInstanceAs (Decidable (List.Pairwise _ inflow))

namespace Quiet

variable {a : Arrival Inflow} {rest inflow : List (Arrival Inflow)} {limit : Nat}

theorem pending_eq_nil (h : Quiet (a :: rest)) (ha : a.event.isFinal = true) :
    pending rest = [] :=
  List.flatMap_eq_nil_iff.2 fun b hb => (List.pairwise_cons.1 h).1 b hb ha

theorem cons_of_not_final (h : Quiet rest) (ha : a.event.isFinal = false) :
    Quiet (a :: rest) := by
  refine List.pairwise_cons.2 ⟨fun b _ hfinal => ?_, h⟩
  rw [ha] at hfinal
  cases hfinal

theorem fill (h : Quiet inflow) (limit n : Nat) : Quiet (fill limit n inflow).inflow := by
  induction inflow generalizing n with
  | nil => cases n <;> exact .nil
  | cons a rest ih =>
      cases n with
      | zero => exact h
      | succ n =>
          have hrest : Quiet rest := (List.pairwise_cons.1 h).2
          obtain ⟨wait, event⟩ := a
          unfold Net.fill
          by_cases hw : limit < wait
          · simp only [hw, if_true]
            exact List.pairwise_cons.2 (List.pairwise_cons.1 h)
          · simp only [hw, if_false]
            cases event with
            | chunk first more =>
                by_cases hm : more.length ≤ n
                · simp only [hm, if_true]
                  exact ih hrest _
                · simp only [hm, if_false]
                  cases more.drop n with
                  | nil => exact hrest
                  | cons b bs => exact cons_of_not_final hrest rfl
            | endOfStream =>
                cases rest with
                | nil => exact List.pairwise_singleton ..
                | cons b rest => exact hrest
            | failed e =>
                by_cases he : e.kind = .interrupted
                · simp only [he, if_true]
                  exact ih hrest _
                · simp only [he, if_false]
                  exact hrest

/-- A burst that no pause ends has all bytes that are left. -/
theorem bytes_burst (h : Quiet inflow) (hstop : (burst limit inflow).stop ≠ .pause) :
    (burst limit inflow).bytes = pending inflow := by
  induction inflow with
  | nil => rfl
  | cons a rest ih =>
      have hrest : Quiet rest := (List.pairwise_cons.1 h).2
      obtain ⟨wait, event⟩ := a
      rw [pending_cons]
      rw [burst] at hstop ⊢
      by_cases hw : limit < wait
      · simp [hw] at hstop
      · simp only [hw, if_false] at hstop ⊢
        cases event with
        | chunk first more => simpa [Burst.after, Inflow.bytes] using ih hrest hstop
        | endOfStream => simpa [Inflow.bytes] using (pending_eq_nil h rfl).symm
        | failed e =>
            by_cases he : e.kind = .interrupted
            · simp only [he, if_true] at hstop ⊢
              simpa [Inflow.bytes] using ih hrest hstop
            · simp only [he, if_false] at hstop ⊢
              have hfinal : (Inflow.failed e).isFinal = true := by simp [Inflow.isFinal, he, hstop]
              simpa [Inflow.bytes] using (pending_eq_nil h hfinal).symm

end Quiet

end ArmSession.Net
