set_option autoImplicit false

namespace TpmRelay

abbrev Bytes := List UInt8

def bigEndian : Nat → Nat → Bytes
  | 0, _ => []
  | width + 1, n => bigEndian width (n / 256) ++ [UInt8.ofNat n]

def ofBigEndian (bytes : Bytes) : Nat :=
  bytes.foldl (fun n byte => n * 256 + byte.toNat) 0

@[simp] theorem length_bigEndian (width n : Nat) : (bigEndian width n).length = width := by
  induction width generalizing n with
  | zero => rfl
  | succ width ih => simp [bigEndian, ih]

theorem ofBigEndian_append (bytes : Bytes) (byte : UInt8) :
    ofBigEndian (bytes ++ [byte]) = ofBigEndian bytes * 256 + byte.toNat := by
  simp [ofBigEndian]

theorem ofBigEndian_bigEndian (width n : Nat) :
    ofBigEndian (bigEndian width n) = n % Nat.pow 256 width := by
  induction width generalizing n with
  | zero => simp [bigEndian, ofBigEndian, Nat.mod_one]
  | succ width ih =>
    have split : Nat.pow 256 (width + 1) = 256 * Nat.pow 256 width := Nat.mul_comm _ _
    rw [bigEndian, ofBigEndian_append, ih, split, Nat.mod_mul, Nat.mul_comm, Nat.add_comm]
    simp

def splitExactly (n : Nat) (bytes : Bytes) : Option (Bytes × Bytes) :=
  let front := bytes.take n
  if front.length = n then some (front, bytes.drop n) else none

theorem splitExactly_eq_some {n : Nat} {bytes front rest : Bytes} :
    splitExactly n bytes = some (front, rest) ↔ front.length = n ∧ bytes = front ++ rest := by
  simp only [splitExactly, List.length_take]
  constructor
  next =>
    intro h
    split at h
    next enough =>
      obtain ⟨rfl, rfl⟩ := Prod.mk.inj (Option.some.inj h)
      exact ⟨by simpa using enough, (List.take_append_drop n bytes).symm⟩
    next => simp at h
  next =>
    rintro ⟨rfl, rfl⟩
    simp

theorem splitExactly_eq_none {n : Nat} {bytes : Bytes} :
    splitExactly n bytes = none ↔ bytes.length < n := by
  simp only [splitExactly, List.length_take]
  split <;> simp <;> omega

end TpmRelay
