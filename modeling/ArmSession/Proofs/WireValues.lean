import ArmSession.Wire.Bytes

/-!
# Values on the wire

Numbers and doubles take eight bytes each and are read back as they were written, whatever follows.
-/

namespace ArmSession

namespace Wire

@[simp] theorem length_bytes64 (x : UInt64) : (bytes64 x).length = 8 := length_littleEndian 8 _

@[simp] theorem read64_bytes64 (x : UInt64) (rest : Bytes) :
    read64 (bytes64 x ++ rest) = some (x, rest) := (read64_eq_some_iff _ _ _).2 rfl

@[simp] theorem readReals_bytesOfReals {n : Nat} (v : Reals n) (rest : Bytes) :
    readReals n (bytesOfReals v ++ rest) = some (v, rest) := (readReals_eq_some_iff _ _ _ _).2 rfl

theorem length_flatMap_bytes64 (xs : List Double) :
    (xs.flatMap fun x => bytes64 x.bits).length = 8 * xs.length := by
  induction xs with
  | nil => rfl
  | cons x xs ih => rw [List.flatMap_cons, List.length_append, ih, length_bytes64,
      List.length_cons]; omega

@[simp] theorem length_bytesOfReals {n : Nat} (v : Reals n) : (bytesOfReals v).length = 8 * n := by
  rw [bytesOfReals, length_flatMap_bytes64, v.length_toList]

theorem flatMap_bytes64_replicate_zero (n : Nat) :
    ((List.replicate n Double.zero).flatMap fun x => bytes64 x.bits) =
      List.replicate (8 * n) 0 := by
  induction n with
  | zero => rfl
  | succ n ih =>
      have hsize : 8 * (n + 1) = 8 + 8 * n := by omega
      rw [List.replicate_succ, List.flatMap_cons, ih, hsize, ← List.replicate_append_replicate]
      rfl

theorem bytesOfReals_zeros (n : Nat) : bytesOfReals (.zeros n) = List.replicate (8 * n) 0 :=
  flatMap_bytes64_replicate_zero n

/-- Widened values keep their bytes, and all that comes after is zero. -/
theorem bytesOfReals_resize {n m : Nat} (v : Reals n) (h : n ≤ m) :
    bytesOfReals (v.resize m) = bytesOfReals v ++ List.replicate (8 * (m - n)) 0 := by
  have hv : (v.resize m).toList = v.toList ++ List.replicate (m - n) Double.zero := by
    rw [Reals.toList_resize, List.take_append,
      List.take_of_length_le (by rw [v.length_toList]; exact h), v.length_toList,
      List.take_replicate, Nat.min_eq_left (Nat.sub_le m n)]
  rw [bytesOfReals, hv, List.flatMap_append, flatMap_bytes64_replicate_zero]
  rfl

theorem flatMap_bytes64_take (xs : List Double) (k : Nat) :
    ((xs.take k).flatMap fun x => bytes64 x.bits) =
      (xs.flatMap fun x => bytes64 x.bits).take (8 * k) := by
  induction xs generalizing k with
  | nil => simp
  | cons x xs ih =>
      cases k with
      | zero => simp
      | succ k =>
          have hsize : 8 * (k + 1) = (bytes64 x.bits).length + 8 * k := by
            rw [length_bytes64]
            omega
          rw [List.take_succ_cons, List.flatMap_cons, List.flatMap_cons, ih, hsize,
            List.take_length_add_append]

theorem bytesOfReals_resize_le {n k : Nat} (v : Reals n) (h : k ≤ n) :
    bytesOfReals (v.resize k) = (bytesOfReals v).take (8 * k) := by
  have hv : (v.resize k).toList = v.toList.take k := by
    rw [Reals.toList_resize, List.take_append_of_le_length (by rw [v.length_toList]; exact h)]
  rw [bytesOfReals, hv, flatMap_bytes64_take]
  rfl

end Wire

end ArmSession
