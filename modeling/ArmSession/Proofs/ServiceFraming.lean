import ArmSession.Net.NetworkLink

/-!
# Frames on the service stream

Of each message that is sent the stream takes a piece: the whole frame if the send succeeds, and
less than the frame if it fails. The pieces of a run of sends stand on the stream one behind the
other. A send that fails after a part of its frame was taken is torn. Up to and with the first
torn send, the stream holds the frames of what was sent and then at most one that is cut short.

Sends look at `outOfStep` but never set it, so the link does not remember that a send was torn,
and the next one may write its frame behind the cut.
-/

namespace ArmSession.Net

open Wire

def frame (m : Bytes) : Bytes := littleEndian lengthSize m.length ++ m

theorem length_frame (m : Bytes) : (frame m).length = lengthSize + m.length := by
  rw [frame, List.length_append, length_littleEndian]

/-- The beginning of something, and not all of it. -/
def CutShort (piece whole : Bytes) : Prop := piece <+: whole ∧ piece.length < whole.length

namespace CutShort

variable {piece whole : Bytes}

theorem nil_frame (m : Bytes) : CutShort [] (frame m) := by
  refine ⟨List.nil_prefix, ?_⟩
  rw [length_frame]
  exact Nat.lt_add_right m.length (by decide)

theorem append_left (front : Bytes) (h : CutShort piece whole) :
    CutShort (front ++ piece) (front ++ whole) := by
  refine ⟨(List.prefix_append_right_inj front).2 h.1, ?_⟩
  simpa only [List.length_append, Nat.add_lt_add_iff_left] using h.2

theorem append_right (back : Bytes) (h : CutShort piece whole) :
    CutShort piece (whole ++ back) := by
  refine ⟨h.1.trans (List.prefix_append whole back), ?_⟩
  rw [List.length_append]
  exact Nat.lt_add_right back.length h.2

end CutShort

/-- A write that fails leaves something behind. -/
theorem length_taken_lt_of_error (outcomes : List WriteOutcome) (bs : Bytes) (e : IoError)
    (h : (writeAll outcomes bs).result = .error e) :
    (writeAll outcomes bs).taken.length < bs.length := by
  induction outcomes generalizing bs with
  | nil => cases bs <;> simp [writeAll] at h
  | cons o rest ih =>
      cases bs with
      | nil => simp [writeAll] at h
      | cons b bs =>
          cases o with
          | takes n =>
              cases n with
              | zero => simp [writeAll]
              | succ n =>
                  have hrest := ih ((b :: bs).drop (n + 1)) h
                  simp only [writeAll, List.length_append, List.length_take, List.length_drop]
                    at hrest ⊢
                  omega
          | failed cause =>
              by_cases hi : cause.kind = .interrupted
              · simp only [writeAll, hi, if_true] at h ⊢
                exact ih _ h
              · simp [writeAll, hi]

/-- What the stream takes of something that is to be written, along with the answer. -/
inductive Taken (whole : Bytes) : Except LinkError Unit → Bytes → Prop
  | all : Taken whole (.ok ()) whole
  | part {e : LinkError} {piece : Bytes} (cut : CutShort piece whole) :
      Taken whole (.error e) piece

namespace Taken

variable {whole piece : Bytes} {answer : Except LinkError Unit}

theorem eq_of_isOk (h : Taken whole answer piece) (hok : answer.isOk = true) : piece = whole := by
  cases h with
  | all => rfl
  | part cut => cases hok

theorem cut_of_not_isOk (h : Taken whole answer piece) (hok : answer.isOk = false) :
    CutShort piece whole := by
  cases h with
  | all => cases hok
  | part cut => exact cut

end Taken

namespace NetworkLink

theorem taken_write (bs : Bytes) (l : NetworkLink) :
    ∃ piece, (l.write bs).2.stream.written = l.stream.written ++ piece ∧
      Taken bs (l.write bs).1 piece := by
  refine ⟨(writeAll l.stream.outcomes bs).taken, rfl, ?_⟩
  have hfront := taken_writeAll l.stream.outcomes bs
  have herror := length_taken_lt_of_error l.stream.outcomes bs
  simp only [write, Stream.write]
  cases hr : (writeAll l.stream.outcomes bs).result with
  | ok u =>
      rw [hfront.2 hr]
      exact .all
  | error e => exact .part ⟨hfront.1, herror e hr⟩

/-- Each send adds one piece to the stream. -/
theorem taken_sendService (m : Bytes) (l : NetworkLink) :
    ∃ piece, (l.sendService m).2.stream.written = l.stream.written ++ piece ∧
      Taken (frame m) (l.sendService m).1 piece := by
  have hrefused (e : LinkError) : Taken (frame m) (.error e) [] := .part (.nil_frame m)
  unfold sendService
  split
  · exact ⟨[], (List.append_nil _).symm, hrefused _⟩
  · split
    · exact ⟨[], (List.append_nil _).symm, hrefused _⟩
    · obtain ⟨head, hhead, htaken⟩ := taken_write (littleEndian lengthSize m.length) l
      generalize l.write (littleEndian lengthSize m.length) = w at hhead htaken
      obtain ⟨answer, l'⟩ := w
      cases htaken with
      | part cut => exact ⟨head, hhead, .part (cut.append_right m)⟩
      | all =>
          obtain ⟨body, hbody, htaken⟩ := taken_write m l'
          refine ⟨littleEndian lengthSize m.length ++ body, ?_, ?_⟩
          · rw [← List.append_assoc, ← hhead]
            exact hbody
          · simp only
            generalize (l'.write m).1 = answer at htaken
            cases htaken with
            | all => exact .all
            | part cut => exact .part (cut.append_left _)

/-- Sends do not set the mark that they look at. -/
@[simp] theorem outOfStep_sendService (m : Bytes) (l : NetworkLink) :
    (l.sendService m).2.outOfStep = l.outOfStep := by
  unfold sendService
  split
  · rfl
  · split
    · rfl
    · have hwrite : (l.write (littleEndian lengthSize m.length)).2.outOfStep = l.outOfStep := rfl
      generalize l.write (littleEndian lengthSize m.length) = w at hwrite ⊢
      obtain ⟨_ | _, l'⟩ := w
      · exact hwrite
      · exact hwrite

end NetworkLink

/-- A message that was sent, with the answer and with what the stream took for it. -/
structure Sending where
  message : Bytes
  answer : Except LinkError Unit
  piece : Bytes

namespace Sending

def sent (s : Sending) : Bool := s.answer.isOk

/-- The send failed after a part of its frame was taken. -/
def torn (s : Sending) : Bool := !s.sent && !s.piece.isEmpty

def Sound (s : Sending) : Prop := Taken (frame s.message) s.answer s.piece

theorem Sound.piece_of_sent {s : Sending} (h : s.Sound) (hs : s.sent = true) :
    s.piece = frame s.message := h.eq_of_isOk hs

theorem Sound.cut_of_torn {s : Sending} (h : s.Sound) (ht : s.torn = true) :
    CutShort s.piece (frame s.message) := by
  refine h.cut_of_not_isOk ?_
  simp only [torn, Bool.and_eq_true, Bool.not_eq_true'] at ht
  exact ht.1

theorem piece_of_failed {s : Sending} (hs : s.sent = false) (ht : s.torn = false) :
    s.piece = [] := by
  simpa [torn, hs] using ht

end Sending

def frames (sendings : List Sending) : Bytes :=
  (sendings.filter (·.sent)).flatMap fun s => frame s.message

/-- Behind a torn send every send fails and nothing is written. -/
def SilentAfterTear (sendings : List Sending) : Prop :=
  sendings.Pairwise fun s t => s.torn = true → t.sent = false ∧ t.piece = []

/-- What is new on a stream are the frames of what was sent, and then at most one frame that is
cut short. -/
def Framed (before after : Bytes) (sendings : List Sending) : Prop :=
  after = before ++ frames sendings ∨
    ∃ s ∈ sendings, s.torn = true ∧ CutShort s.piece (frame s.message) ∧
      after = before ++ frames sendings ++ s.piece

theorem frames_cons_of_sent {s : Sending} (rest : List Sending) (h : s.sent = true) :
    frames (s :: rest) = frame s.message ++ frames rest := by
  rw [frames, List.filter_cons_of_pos h, List.flatMap_cons, frames]

theorem frames_cons_of_failed {s : Sending} (rest : List Sending) (h : s.sent = false) :
    frames (s :: rest) = frames rest := by
  rw [frames, List.filter_cons_of_neg (by simp [h]), frames]

/-- As long as torn sends are followed by silence, the pieces of a run are its frames and one
piece that is cut short. -/
theorem flatMap_piece_of_silent (sendings : List Sending) (hsound : ∀ s ∈ sendings, s.Sound)
    (hsilent : SilentAfterTear sendings) :
    sendings.flatMap (·.piece) = frames sendings ∨
      ∃ s ∈ sendings, s.torn = true ∧ CutShort s.piece (frame s.message) ∧
        sendings.flatMap (·.piece) = frames sendings ++ s.piece := by
  induction sendings with
  | nil => exact .inl rfl
  | cons s rest ih =>
      obtain ⟨hquiet, hsilent⟩ := List.pairwise_cons.1 hsilent
      obtain ⟨hs, hsound⟩ := List.forall_mem_cons.1 hsound
      rw [List.flatMap_cons]
      cases hsent : s.sent with
      | true =>
          rw [hs.piece_of_sent hsent, frames_cons_of_sent rest hsent]
          obtain hrest | ⟨t, ht, htorn, hcut, hrest⟩ := ih hsound hsilent
          · exact .inl (by rw [hrest])
          · refine .inr ⟨t, List.mem_cons_of_mem s ht, htorn, hcut, ?_⟩
            rw [hrest, List.append_assoc]
      | false =>
          rw [frames_cons_of_failed rest hsent]
          cases htorn : s.torn with
          | true =>
              -- Nothing comes from the sends behind this one, so its piece is the last.
              have hpieces : rest.flatMap (·.piece) = [] :=
                List.flatMap_eq_nil_iff.2 fun t ht => (hquiet t ht htorn).2
              have hframes : frames rest = [] := by
                rw [frames, List.filter_eq_nil_iff.2 fun t ht => by simp [(hquiet t ht htorn).1]]
                rfl
              refine .inr ⟨s, List.mem_cons_self, htorn, hs.cut_of_torn htorn, ?_⟩
              rw [hpieces, hframes, List.append_nil, List.nil_append]
          | false =>
              rw [Sending.piece_of_failed hsent htorn, List.nil_append]
              obtain hrest | ⟨t, ht, htorn, hcut, hrest⟩ := ih hsound hsilent
              · exact .inl hrest
              · exact .inr ⟨t, List.mem_cons_of_mem s ht, htorn, hcut, hrest⟩

/-- The part of a run that ends with its first torn send has nothing behind that send. -/
theorem silent_up_to_tear (sendings : List Sending) :
    SilentAfterTear
      (sendings.take ((sendings.takeWhile fun s => !s.torn).length + 1)) := by
  induction sendings with
  | nil => exact .nil
  | cons s rest ih =>
      cases htorn : s.torn with
      | true =>
          rw [List.takeWhile_cons_of_neg (by simp [htorn])]
          exact List.pairwise_singleton ..
      | false =>
          rw [List.takeWhile_cons_of_pos (by simp [htorn]), List.length_cons, List.take_succ_cons]
          refine List.pairwise_cons.2 ⟨fun t _ h => ?_, ih⟩
          rw [htorn] at h
          cases h

namespace NetworkLink

def sending (m : Bytes) (l : NetworkLink) : Sending × NetworkLink :=
  let (answer, l') := l.send .service m
  (⟨m, answer, l'.stream.written.drop l.stream.written.length⟩, l')

def sendEach : List Bytes → NetworkLink → List Sending × NetworkLink
  | [], l => ([], l)
  | m :: rest, l =>
    let (s, l) := l.sending m
    let (more, l) := sendEach rest l
    (s :: more, l)

theorem sending_spec (m : Bytes) (l : NetworkLink) :
    (l.sending m).1.message = m ∧ (l.sending m).1.Sound ∧
      (l.sending m).2.stream.written = l.stream.written ++ (l.sending m).1.piece ∧
      (l.sending m).2.outOfStep = l.outOfStep := by
  obtain ⟨piece, hwritten, htaken⟩ := l.taken_sendService m
  have hpiece : (l.sending m).1.piece = piece := by
    change (l.sendService m).2.stream.written.drop l.stream.written.length = piece
    rw [hwritten, List.drop_left]
  refine ⟨rfl, ?_, ?_, outOfStep_sendService m l⟩
  · rw [Sending.Sound, hpiece]
    exact htaken
  · rw [hpiece]
    exact hwritten

theorem sendEach_spec (ms : List Bytes) (l : NetworkLink) :
    (l.sendEach ms).1.map (·.message) = ms ∧ (∀ s ∈ (l.sendEach ms).1, s.Sound) ∧
      (l.sendEach ms).2.stream.written =
        l.stream.written ++ (l.sendEach ms).1.flatMap (·.piece) ∧
      (l.sendEach ms).2.outOfStep = l.outOfStep := by
  induction ms generalizing l with
  | nil => simp [sendEach]
  | cons m rest ih =>
      obtain ⟨hmessage, hsound, hwritten, hstep⟩ := l.sending_spec m
      obtain ⟨hmessages, hsounds, hrest, hsteps⟩ := ih (l.sending m).2
      refine ⟨?_, List.forall_mem_cons.2 ⟨hsound, hsounds⟩, ?_, hsteps.trans hstep⟩
      · exact List.cons_eq_cons.2 ⟨hmessage, hmessages⟩
      · change ((l.sending m).2.sendEach rest).2.stream.written = _
        rw [hrest, hwritten, List.append_assoc]
        rfl

theorem sendEach_take (ms : List Bytes) (n : Nat) (l : NetworkLink) :
    (l.sendEach (ms.take n)).1 = (l.sendEach ms).1.take n := by
  induction ms generalizing n l with
  | nil => simp [sendEach]
  | cons m rest ih =>
      cases n with
      | zero => rfl
      | succ n => exact congrArg (List.cons _) (ih n (l.sending m).2)

/-- A run whose torn sends are followed by silence leaves a stream that a peer can cut into its
frames, but for the last. -/
theorem framed_of_silent (ms : List Bytes) (l : NetworkLink)
    (h : SilentAfterTear (l.sendEach ms).1) :
    Framed l.stream.written (l.sendEach ms).2.stream.written (l.sendEach ms).1 := by
  obtain ⟨-, hsound, hwritten, -⟩ := l.sendEach_spec ms
  obtain hpieces | ⟨s, hs, htorn, hcut, hpieces⟩ := flatMap_piece_of_silent _ hsound h
  · exact .inl (by rw [hwritten, hpieces])
  · exact .inr ⟨s, hs, htorn, hcut, by rw [hwritten, hpieces, List.append_assoc]⟩

/-- After any run of sends the stream holds their pieces in order, whole for those that succeed
and cut short for the others. The mark is not set, whatever happens, and the stream is framed up to
and with the first torn send. -/
theorem service_stream_of_sends (ms : List Bytes) (l : NetworkLink) :
    let run := l.sendEach ms
    let upToTear := l.sendEach (ms.take ((run.1.takeWhile fun s => !s.torn).length + 1))
    run.1.map (·.message) = ms ∧ (∀ s ∈ run.1, s.Sound) ∧
      run.2.stream.written = l.stream.written ++ run.1.flatMap (·.piece) ∧
      run.2.outOfStep = l.outOfStep ∧
      Framed l.stream.written upToTear.2.stream.written upToTear.1 := by
  intro run upToTear
  obtain ⟨hmessages, hsound, hwritten, hstep⟩ := l.sendEach_spec ms
  refine ⟨hmessages, hsound, hwritten, hstep, l.framed_of_silent _ ?_⟩
  rw [sendEach_take]
  exact silent_up_to_tear run.1

/-- A new link whose stream takes four bytes and is then blocked once. -/
def blocking : NetworkLink where
  stream := ⟨[], [.takes lengthSize, .failed .blocked], []⟩
  socket := ⟨⟨.v4 127 0 0 1, 0, 0⟩, [], [], []⟩
  peer := none
  outOfStep := false
  now := 0
  log := []

def reading (bs : Bytes) : NetworkLink :=
  { blocking with stream := ⟨((Inflow.ofBytes? bs).map (⟨0, ·⟩)).toList, [], []⟩ }

/-- The first send is torn behind its length, and the second puts a frame behind the cut. Who
reads the stream takes the second length for the body of the first message. -/
theorem torn_send_followed_by_frame :
    let run := blocking.sendEach [[9, 8, 7], [5]]
    run.1 = [⟨[9, 8, 7], .error (.io IoError.blocked.text), [3, 0, 0, 0]⟩,
        ⟨[5], .ok (), [1, 0, 0, 0, 5]⟩] ∧
      run.2.stream.written = [3, 0, 0, 0, 1, 0, 0, 0, 5] ∧
      ¬ SilentAfterTear run.1 ∧ ¬ Framed [] run.2.stream.written run.1 ∧
      ((reading run.2.stream.written).receiveService ⟨1000000⟩).1 = .ok [1, 0, 0] := by
  have hrun : (blocking.sendEach [[9, 8, 7], [5]]).1 =
      [⟨[9, 8, 7], .error (.io IoError.blocked.text), [3, 0, 0, 0]⟩,
        ⟨[5], .ok (), [1, 0, 0, 0, 5]⟩] := rfl
  have hstream : (blocking.sendEach [[9, 8, 7], [5]]).2.stream.written =
      [3, 0, 0, 0, 1, 0, 0, 0, 5] := rfl
  intro run
  refine ⟨hrun, hstream, ?_, ?_, ?_⟩
  · intro hsilent
    rw [hrun] at hsilent
    have hlater := List.rel_of_pairwise_cons hsilent (List.mem_singleton_self _) rfl
    exact absurd hlater.1 (by decide)
  · -- The frame of the second message begins with its length, the stream with the other one.
    rw [hrun, hstream]
    rintro (h | ⟨s, -, -, -, h⟩) <;> exact absurd (List.cons.inj h).1 (by decide)
  · rw [hstream]
    rfl

end NetworkLink

end ArmSession.Net
