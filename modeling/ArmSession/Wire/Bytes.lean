import ArmSession.Double

/-!
# Numbers as bytes

Messages are lists of bytes and write every number least significant byte first. A reader
takes what it needs from the front and hands back the rest, and answers nothing when the
bytes run out.
-/

namespace ArmSession

abbrev Bytes := List UInt8

namespace Wire

/-- The `n` low bytes of `x`. -/
def littleEndian : Nat → Nat → Bytes
  | 0, _ => []
  | n + 1, x => UInt8.ofNat x :: littleEndian n (x / 256)

def ofLittleEndian : Bytes → Nat
  | [] => 0
  | b :: bs => b.toNat + 256 * ofLittleEndian bs

def capacity : Nat → Nat
  | 0 => 1
  | n + 1 => 256 * capacity n

theorem capacity_pos (n : Nat) : 0 < capacity n := by
  induction n with
  | zero => exact Nat.one_pos
  | succ n ih => exact Nat.mul_pos (by decide) ih

theorem capacity_two : capacity 2 = UInt16.size := rfl

@[simp] theorem length_littleEndian (n x : Nat) : (littleEndian n x).length = n := by
  induction n generalizing x with
  | zero => rfl
  | succ n ih => simp [littleEndian, ih]

theorem ofLittleEndian_littleEndian (n x : Nat) :
    ofLittleEndian (littleEndian n x) = x % capacity n := by
  induction n generalizing x with
  | zero => simp [littleEndian, ofLittleEndian, capacity, Nat.mod_one]
  | succ n ih =>
      have hb : (UInt8.ofNat x).toNat = x % 256 := UInt8.toNat_ofNat'
      rw [littleEndian, ofLittleEndian, ih, hb, capacity, Nat.mod_mul]

theorem littleEndian_ofLittleEndian (bs : Bytes) :
    littleEndian bs.length (ofLittleEndian bs) = bs := by
  induction bs with
  | nil => rfl
  | cons b bs ih =>
      have hb : b.toNat < 256 := b.toNat_lt
      have hdiv : (b.toNat + 256 * ofLittleEndian bs) / 256 = ofLittleEndian bs := by omega
      have hmod : UInt8.ofNat (b.toNat + 256 * ofLittleEndian bs) = b := by
        apply UInt8.toNat_inj.1
        rw [UInt8.toNat_ofNat']
        omega
      rw [List.length_cons, ofLittleEndian, littleEndian, hdiv, hmod, ih]

theorem ofLittleEndian_lt (bs : Bytes) : ofLittleEndian bs < capacity bs.length := by
  rw [← littleEndian_ofLittleEndian bs, ofLittleEndian_littleEndian, length_littleEndian]
  exact Nat.mod_lt _ (capacity_pos _)

def bytes16 (x : UInt16) : Bytes := littleEndian 2 x.toNat

def bytes64 (x : UInt64) : Bytes := littleEndian 8 x.toNat

def bytesOfReals {n : Nat} (v : Reals n) : Bytes := v.toList.flatMap fun x => bytes64 x.bits

def readNumber (n : Nat) (bs : Bytes) : Option (Nat × Bytes) :=
  if n ≤ bs.length then some (ofLittleEndian (bs.take n), bs.drop n) else none

def read8 : Bytes → Option (UInt8 × Bytes)
  | [] => none
  | b :: bs => some (b, bs)

def read16 (bs : Bytes) : Option (UInt16 × Bytes) :=
  (readNumber 2 bs).map fun (x, rest) => (UInt16.ofNat x, rest)

def read64 (bs : Bytes) : Option (UInt64 × Bytes) :=
  (readNumber 8 bs).map fun (x, rest) => (UInt64.ofNat x, rest)

def readReals : (n : Nat) → Bytes → Option (Reals n × Bytes)
  | 0, bs => some (.nil, bs)
  | n + 1, bs => do
      let (x, bs) ← read64 bs
      let (v, bs) ← readReals n bs
      some (.cons ⟨x⟩ v, bs)

/-- A number is read exactly from its own bytes, whatever follows them. -/
theorem readNumber_eq_some_iff (n x : Nat) (bs rest : Bytes) :
    readNumber n bs = some (x, rest) ↔ x < capacity n ∧ bs = littleEndian n x ++ rest := by
  constructor
  · intro h
    unfold readNumber at h
    split at h
    · next hn =>
        simp only [Option.some.injEq, Prod.mk.injEq] at h
        obtain ⟨rfl, rfl⟩ := h
        have hl : (bs.take n).length = n := by simp [hn]
        refine ⟨by simpa [hl] using ofLittleEndian_lt (bs.take n), ?_⟩
        have hb := littleEndian_ofLittleEndian (bs.take n)
        rw [hl] at hb
        rw [hb, List.take_append_drop]
    · simp at h
  · rintro ⟨hx, rfl⟩
    simp [readNumber, ofLittleEndian_littleEndian, Nat.mod_eq_of_lt hx]

theorem read16_eq_some_iff (x : UInt16) (bs rest : Bytes) :
    read16 bs = some (x, rest) ↔ bs = bytes16 x ++ rest := by
  simp only [read16, Option.map_eq_some_iff, Prod.exists, Prod.mk.injEq, readNumber_eq_some_iff]
  constructor
  · rintro ⟨y, r, ⟨hy, rfl⟩, rfl, rfl⟩
    rw [bytes16, UInt16.toNat_ofNat_of_lt' hy]
  · rintro rfl
    exact ⟨x.toNat, rest, ⟨x.toNat_lt_size, rfl⟩, UInt16.ofNat_toNat, rfl⟩

theorem read64_eq_some_iff (x : UInt64) (bs rest : Bytes) :
    read64 bs = some (x, rest) ↔ bs = bytes64 x ++ rest := by
  simp only [read64, Option.map_eq_some_iff, Prod.exists, Prod.mk.injEq, readNumber_eq_some_iff]
  constructor
  · rintro ⟨y, r, ⟨hy, rfl⟩, rfl, rfl⟩
    rw [bytes64, UInt64.toNat_ofNat_of_lt' hy]
  · rintro rfl
    exact ⟨x.toNat, rest, ⟨x.toNat_lt_size, rfl⟩, UInt64.ofNat_toNat, rfl⟩

theorem bytesOfReals_cons {n : Nat} (x : Double) (v : Reals n) :
    bytesOfReals (.cons x v) = bytes64 x.bits ++ bytesOfReals v := by
  simp [bytesOfReals]

theorem readReals_eq_some_iff (n : Nat) (v : Reals n) (bs rest : Bytes) :
    readReals n bs = some (v, rest) ↔ bs = bytesOfReals v ++ rest := by
  induction n generalizing bs with
  | zero =>
      have hv : v = .nil := Reals.eq_of_toList (List.eq_nil_of_length_eq_zero v.length_toList)
      subst hv
      simp [readReals, bytesOfReals, Reals.nil]
  | succ n ih =>
      obtain ⟨xs, hxs⟩ := v
      cases xs with
      | nil => simp at hxs
      | cons x xs =>
          have hcons : (⟨x :: xs, hxs⟩ : Reals (n + 1)) = .cons x ⟨xs, by simpa using hxs⟩ := rfl
          rw [hcons, bytesOfReals_cons, List.append_assoc, ← read64_eq_some_iff]
          simp only [readReals, Option.bind_eq_bind, Option.bind_eq_some_iff, Prod.exists,
            Option.some.injEq, Prod.mk.injEq]
          constructor
          · rintro ⟨y, r, hy, w, r', hw, hc, rfl⟩
            have hl := congrArg Reals.toList hc
            simp only [Reals.toList_cons, List.cons.injEq] at hl
            obtain ⟨rfl, rfl⟩ := hl
            rw [hy, (ih w r).1 hw]
          · intro hx
            exact ⟨x.bits, _, hx, ⟨xs, by simpa using hxs⟩, rest, (ih _ _).2 rfl, rfl, rfl⟩

end Wire

end ArmSession
