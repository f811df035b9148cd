import ArmSession.Proofs.HeaderChecks
import ArmSession.Proofs.WireValues

/-!
# Layouts

The fields of a payload lie one after the other in a fixed number of bytes. A layout says that
fields and bytes determine each other: fields are read back from their bytes, whatever follows,
and every run of bytes of that size is made of fields. So a payload that has the size of its kind
is read to its end, never beyond it, and reading it cannot fail.
-/

namespace ArmSession.Wire

theorem exists_byte {bs : Bytes} (left : Nat) (h : bs.length = 1 + left) :
    ∃ b rest, bs = b :: rest ∧ rest.length = left := by
  cases bs with
  | nil => rw [List.length_nil] at h; omega
  | cons b rest => exact ⟨b, rest, rfl, by rw [List.length_cons] at h; omega⟩

theorem exists_bytes16 {bs : Bytes} (left : Nat) (h : bs.length = 2 + left) :
    ∃ x rest, bs = bytes16 x ++ rest ∧ rest.length = left := by
  have hread : read16 bs = some (UInt16.ofNat (ofLittleEndian (bs.take 2)), bs.drop 2) := by
    simp [read16, readNumber, h]
  refine ⟨_, _, (read16_eq_some_iff _ _ _).1 hread, ?_⟩
  rw [List.length_drop, h, Nat.add_sub_cancel_left]

theorem exists_bytes64 {bs : Bytes} (left : Nat) (h : bs.length = 8 + left) :
    ∃ x rest, bs = bytes64 x ++ rest ∧ rest.length = left := by
  have hread : read64 bs = some (UInt64.ofNat (ofLittleEndian (bs.take 8)), bs.drop 8) := by
    simp [read64, readNumber, h]
  refine ⟨_, _, (read64_eq_some_iff _ _ _).1 hread, ?_⟩
  rw [List.length_drop, h, Nat.add_sub_cancel_left]

theorem exists_bytesOfReals (n : Nat) {bs : Bytes} (left : Nat) (h : bs.length = 8 * n + left) :
    ∃ (v : Reals n) (rest : Bytes), bs = bytesOfReals v ++ rest ∧ rest.length = left := by
  induction n generalizing bs with
  | zero => exact ⟨.nil, bs, rfl, by simpa using h⟩
  | succ n ih =>
      obtain ⟨x, more, rfl, hmore⟩ := exists_bytes64 (8 * n + left) (h.trans (by omega))
      obtain ⟨v, rest, rfl, hrest⟩ := ih hmore
      exact ⟨.cons ⟨x⟩ v, rest, by rw [bytesOfReals_cons, List.append_assoc], hrest⟩

structure Layout {α : Type} (read : Bytes → Option (α × Bytes)) (size : Nat)
    (body : α → Bytes) : Prop where
  length_body (fields : α) : (body fields).length = size
  read_body (fields : α) (rest : Bytes) : read (body fields ++ rest) = some (fields, rest)
  exists_body (bs : Bytes) (h : bs.length = size) : ∃ fields, bs = body fields

namespace Layout

variable {α : Type} {read : Bytes → Option (α × Bytes)} {size : Nat} {body : α → Bytes}

theorem read_eq (hl : Layout read size body) (f : α) : read (body f) = some (f, []) := by
  simpa using hl.read_body f []

variable {kind : MessageKind} {m : Bytes}

/-- Reading takes the whole payload and leaves nothing over. -/
theorem exists_read (hl : Layout read size body) {bs : Bytes} (h : Fits kind size m bs) :
    ∃ f, bs = body f ∧ read bs = some (f, []) ∧ decodeFields read kind size m = .ok f := by
  obtain ⟨f, rfl⟩ := hl.exists_body bs h.length_eq
  refine ⟨f, rfl, hl.read_eq f, ?_⟩
  simp only [decodeFields, payload_of_fits h, hl.read_eq f]

/-- Fields are refused for the header or the size only. -/
theorem decodeFields_eq_error_iff (hl : Layout read size body) {e : MessageError} :
    decodeFields read kind size m = .error e ↔ Misfit kind size m e := by
  rw [← payload_eq_error_iff]
  cases hp : payload m kind size with
  | error e' => simp [decodeFields, hp]
  | ok bs =>
      obtain ⟨f, -, -, hf⟩ := hl.exists_read (payload_eq_ok_iff.1 hp)
      simp [hf]

theorem decodeFields_eq_ok_iff (hl : Layout read size body) {f : α} :
    decodeFields read kind size m = .ok f ↔ Fits kind size m (body f) := by
  constructor
  · intro h
    cases hp : payload m kind size with
    | error e => simp [decodeFields, hp] at h
    | ok bs =>
        have hbs := payload_eq_ok_iff.1 hp
        obtain ⟨g, rfl, -, hg⟩ := hl.exists_read hbs
        rw [hg] at h
        cases h
        exact hbs
  · intro h
    obtain ⟨g, -, hread, hg⟩ := hl.exists_read h
    rw [hl.read_eq f] at hread
    cases hread
    exact hg

end Layout

end ArmSession.Wire
