import ArmSession.Proofs.HeaderChecks

/-!
# Significant bits

A reader does not look at every bit of a message: some are reserved, and some belong to a part
that is absent. A mask has a byte for each byte of the message and tells which bits count; masking
a message clears the others.
-/

namespace ArmSession.Wire

def masked (mask m : Bytes) : Bytes := List.zipWith (· &&& ·) mask m

def kept (n : Nat) : Bytes := List.replicate n 0xff

def cleared (n : Nat) : Bytes := List.replicate n 0

/-- The second byte of a header does not count. -/
def headerMask : Bytes := [0xff, 0, 0xff, 0xff]

/-- There are only 256 bytes, so that a property of all of them can be tried out. -/
instance decidableForallByte {p : UInt8 → Prop} [DecidablePred p] : Decidable (∀ b, p b) :=
  decidable_of_iff (∀ i : Fin 256, p ⟨⟨i⟩⟩) ⟨fun h b => h b.toFin, fun h i => h ⟨⟨i⟩⟩⟩

theorem and_ff (b : UInt8) : 0xff &&& b = b := by
  apply UInt8.toBitVec_inj.1
  rw [UInt8.toBitVec_and]
  exact BitVec.allOnes_and

@[simp] theorem masked_cons (b c : UInt8) (mask m : Bytes) :
    masked (b :: mask) (c :: m) = (b &&& c) :: masked mask m := rfl

theorem masked_append {mask m : Bytes} (h : mask.length = m.length) (mask' m' : Bytes) :
    masked (mask ++ mask') (m ++ m') = masked mask m ++ masked mask' m' :=
  List.zipWith_append h

theorem masked_kept {n : Nat} {m : Bytes} (h : m.length = n) : masked (kept n) m = m := by
  subst h
  induction m with
  | nil => rfl
  | cons b m ih =>
      rw [List.length_cons, kept, List.replicate_succ, masked_cons, and_ff]
      exact congrArg (b :: ·) ih

theorem masked_cleared {n : Nat} {m : Bytes} (h : m.length = n) :
    masked (cleared n) m = cleared n := by
  subst h
  induction m with
  | nil => rfl
  | cons b m ih =>
      rw [List.length_cons, cleared, List.replicate_succ, masked_cons, UInt8.zero_and]
      exact congrArg ((0 : UInt8) :: ·) ih

@[simp] theorem length_kept (n : Nat) : (kept n).length = n := List.length_replicate

@[simp] theorem length_cleared (n : Nat) : (cleared n).length = n := List.length_replicate

theorem masked_header (kind : MessageKind) {size : Nat} (hsize : size < UInt16.size)
    (flags : UInt8) (mask body : Bytes) :
    masked (headerMask ++ mask) (kind.code :: flags :: (littleEndian 2 size ++ body)) =
      (Header.ofSize kind size).encode ++ masked mask body := by
  have hflags : (0 : UInt8) &&& flags = 0 := UInt8.zero_and
  have hlength : ([0xff, 0xff] : Bytes).length = (littleEndian 2 size).length := by simp
  have hmask : headerMask ++ mask = 0xff :: 0 :: ([0xff, 0xff] ++ mask) := rfl
  have hbytes : masked [0xff, 0xff] (littleEndian 2 size) = littleEndian 2 size :=
    masked_kept (length_littleEndian 2 size)
  rw [hmask, masked_cons, masked_cons, masked_append hlength, hbytes, and_ff, hflags,
    Header.encode_ofSize kind hsize]
  rfl

end ArmSession.Wire
