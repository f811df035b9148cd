/-!
# Doubles that are only carried

The values of states and commands are IEEE 754 doubles that nothing here computes with. They
are held by their 64 bits, so every pattern of a NaN survives, and two questions are asked of
them: whether they are finite, and whether they are equal as numbers. `Reals n` is `n` of them.
-/

namespace ArmSession

structure Double where
  bits : UInt64
deriving DecidableEq

namespace Double

def zero : Double := ⟨0⟩

def one : Double := ⟨0x3ff0000000000000⟩

def magnitude (x : Double) : UInt64 := x.bits &&& 0x7fffffffffffffff

/-- An exponent field of all ones marks infinities and NaNs. -/
def isFinite (x : Double) : Bool := x.magnitude < 0x7ff0000000000000

def isNaN (x : Double) : Bool := 0x7ff0000000000000 < x.magnitude

/-- Equality of numbers: a NaN equals nothing, and the two zeros are equal. -/
def equal (x y : Double) : Bool :=
  !x.isNaN && !y.isNaN && (x.bits == y.bits || (x.magnitude == 0 && y.magnitude == 0))

end Double

structure Reals (n : Nat) where
  toList : List Double
  length_toList : toList.length = n
deriving DecidableEq

namespace Reals

variable {n m : Nat}

def nil : Reals 0 := ⟨[], rfl⟩

def cons (x : Double) (v : Reals n) : Reals (n + 1) := ⟨x :: v.toList, by simp [v.length_toList]⟩

def replicate (n : Nat) (x : Double) : Reals n := ⟨List.replicate n x, List.length_replicate⟩

def zeros (n : Nat) : Reals n := replicate n .zero

def ofList? (n : Nat) (xs : List Double) : Option (Reals n) :=
  if h : xs.length = n then some ⟨xs, h⟩ else none

/-- The leading values, with zeros where `v` has none. -/
def resize (m : Nat) (v : Reals n) : Reals m :=
  ⟨(v.toList ++ List.replicate m Double.zero).take m, by simp⟩

def allFinite (v : Reals n) : Bool := v.toList.all Double.isFinite

def equal (v w : Reals n) : Bool := (v.toList.zip w.toList).all fun (x, y) => x.equal y

@[simp] theorem toList_cons (x : Double) (v : Reals n) : (cons x v).toList = x :: v.toList := rfl

theorem eq_of_toList {v w : Reals n} (h : v.toList = w.toList) : v = w := by
  cases v; cases w; cases h; rfl

theorem toList_resize (v : Reals n) :
    (v.resize m).toList = (v.toList ++ List.replicate m Double.zero).take m := rfl

/-- Widening and cutting back gives the same values. -/
theorem resize_resize (v : Reals n) (h : n ≤ m) : (v.resize m).resize n = v := by
  apply eq_of_toList
  have hv : (v.resize m).toList = v.toList ++ List.replicate (m - n) Double.zero := by
    rw [toList_resize, List.take_append, List.take_of_length_le (by rw [v.length_toList]; exact h),
      v.length_toList, List.take_replicate, Nat.min_eq_left (Nat.sub_le m n)]
  rw [toList_resize, hv, List.append_assoc,
    List.take_append_of_le_length (by simp [v.length_toList]),
    List.take_of_length_le (by simp [v.length_toList])]

end Reals

end ArmSession
