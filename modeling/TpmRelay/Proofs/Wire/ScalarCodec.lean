import Mathlib.Data.List.Induction
import TpmRelay.Wire.Value

set_option autoImplicit false

namespace TpmRelay

theorem bigEndian_ofBigEndian (bytes : Bytes) :
    bigEndian bytes.length (ofBigEndian bytes) = bytes := by
  induction bytes using List.reverseRecOn with
  | nil => rfl
  | append_singleton front last ih =>
    have small : last.toNat < 256 := last.toNat_lt
    have quotient : (ofBigEndian front * 256 + last.toNat) / 256 = ofBigEndian front := by omega
    have remainder : UInt8.ofNat (ofBigEndian front * 256 + last.toNat) = last := by
      apply UInt8.toNat_inj.mp
      rw [UInt8.toNat_ofNat']
      omega
    rw [ofBigEndian_append, List.length_append, List.length_singleton, bigEndian, quotient,
      remainder, ih]

theorem ofBigEndian_lt (bytes : Bytes) : ofBigEndian bytes < Nat.pow 256 bytes.length := by
  have same := congrArg ofBigEndian (bigEndian_ofBigEndian bytes)
  rw [ofBigEndian_bigEndian] at same
  rw [← same]
  exact Nat.mod_lt _ (Nat.pow_pos (by decide))

end TpmRelay

namespace TpmRelay.Wire

namespace Scalar

theorem bits_lt (scalar : Scalar) : scalar.bits < Nat.pow 256 scalar.type.size := by
  cases scalar with
  | u8 n => exact n.toNat_lt
  | u16 n => exact n.toNat_lt
  | u32 n => exact n.toNat_lt
  | i32 n => exact n.toUInt32.toNat_lt

@[simp] theorem ofBits_bits (scalar : Scalar) : ofBits scalar.type scalar.bits = scalar := by
  cases scalar <;> simp [type, bits, ofBits]

@[simp] theorem type_ofBits (type : ScalarType) (n : Nat) : (ofBits type n).type = type := by
  cases type <;> rfl

theorem bits_ofBits (type : ScalarType) (n : Nat) (bound : n < Nat.pow 256 type.size) :
    (ofBits type n).bits = n := by
  cases type <;> simp only [ScalarType.size, Nat.pow_eq] at bound <;>
    simp [ofBits, bits] <;> omega

@[simp] theorem ofBigEndian_encode (scalar : Scalar) : ofBigEndian scalar.encode = scalar.bits := by
  rw [encode, ofBigEndian_bigEndian, Nat.mod_eq_of_lt scalar.bits_lt]

theorem encode_ofBits_ofBigEndian (type : ScalarType) (bytes : Bytes)
    (size : bytes.length = type.size) : (ofBits type (ofBigEndian bytes)).encode = bytes := by
  have bound := ofBigEndian_lt bytes
  rw [size] at bound
  rw [encode, bits_ofBits type _ bound, type_ofBits, ← size, bigEndian_ofBigEndian]

end Scalar

theorem ScalarType.read_encode_append (scalar : Scalar) (rest : Bytes) :
    scalar.type.read (scalar.encode ++ rest) = (some scalar, rest) := by
  have split : splitExactly scalar.type.size (scalar.encode ++ rest) = some (scalar.encode, rest) :=
    splitExactly_eq_some.mpr ⟨scalar.length_encode, rfl⟩
  simp [read, split]

theorem ScalarType.encode_of_read {type : ScalarType} {input rest : Bytes} {scalar : Scalar}
    (found : type.read input = (some scalar, rest)) :
    scalar.type = type ∧ input = scalar.encode ++ rest := by
  unfold ScalarType.read at found
  split at found
  next front left split =>
    obtain ⟨size, rfl⟩ := splitExactly_eq_some.mp split
    simp only [Prod.mk.injEq, Option.some.injEq] at found
    obtain ⟨rfl, rfl⟩ := found
    exact ⟨Scalar.type_ofBits type _, by rw [Scalar.encode_ofBits_ofBigEndian type front size]⟩
  next => simp at found

theorem ScalarType.read_eq_none {type : ScalarType} {input rest : Bytes}
    (missing : type.read input = (none, rest)) : input.length < type.size ∧ rest = [] := by
  unfold ScalarType.read at missing
  split at missing
  next => simp at missing
  next split =>
    simp only [Prod.mk.injEq, true_and] at missing
    exact ⟨splitExactly_eq_none.mp split, missing.symm⟩

def encodeScalars (scalars : List Scalar) : Bytes :=
  scalars.flatMap Scalar.encode

def totalSize (types : List ScalarType) : Nat :=
  types.foldr (fun type total => type.size + total) 0

@[simp] theorem length_encodeScalars (scalars : List Scalar) :
    (encodeScalars scalars).length = totalSize (scalars.map Scalar.type) := by
  induction scalars with
  | nil => rfl
  | cons scalar scalars ih =>
    simp only [encodeScalars, totalSize] at ih
    simp [encodeScalars, totalSize, ih]

theorem readScalars_encode_append (scalars : List Scalar) (rest : Bytes) :
    readScalars (scalars.map Scalar.type) (encodeScalars scalars ++ rest) = (some scalars, rest) := by
  induction scalars with
  | nil => rfl
  | cons scalar scalars ih =>
    rw [encodeScalars] at ih ⊢
    rw [List.flatMap_cons, List.append_assoc, List.map_cons, readScalars,
      ScalarType.read_encode_append]
    simp [ih]

theorem encode_of_readScalars {types : List ScalarType} {input rest : Bytes} {scalars : List Scalar}
    (found : readScalars types input = (some scalars, rest)) :
    scalars.map Scalar.type = types ∧ input = encodeScalars scalars ++ rest := by
  induction types generalizing input scalars with
  | nil =>
    simp only [readScalars, Prod.mk.injEq, Option.some.injEq] at found
    obtain ⟨rfl, rfl⟩ := found
    simp [encodeScalars]
  | cons type types ih =>
    rw [readScalars] at found
    split at found
    next scalar left first =>
      obtain ⟨rfl, rfl⟩ := ScalarType.encode_of_read first
      cases later : readScalars types left with
      | mk result left' =>
        cases result with
        | none => simp [later] at found
        | some others =>
          simp only [later, Option.map_some, Prod.mk.injEq, Option.some.injEq] at found
          obtain ⟨rfl, rfl⟩ := found
          obtain ⟨rfl, rfl⟩ := ih later
          simp [encodeScalars]
    next => simp at found

theorem readScalars_eq_none {types : List ScalarType} {input rest : Bytes}
    (missing : readScalars types input = (none, rest)) :
    input.length < totalSize types ∧ rest = [] := by
  induction types generalizing input with
  | nil => simp [readScalars] at missing
  | cons type types ih =>
    rw [readScalars] at missing
    split at missing
    next scalar left first =>
      obtain ⟨rfl, rfl⟩ := ScalarType.encode_of_read first
      cases later : readScalars types left with
      | mk result left' =>
        cases result with
        | none =>
          simp only [later, Option.map_none, Prod.mk.injEq, true_and] at missing
          subst missing
          obtain ⟨short, rfl⟩ := ih later
          simp only [totalSize] at short ⊢
          simp [short]
        | some others => simp [later] at missing
    next left first =>
      simp only [Prod.mk.injEq, true_and] at missing
      subst missing
      obtain ⟨short, rfl⟩ := ScalarType.read_eq_none first
      simp only [totalSize, List.foldr_cons, and_true]
      omega

end TpmRelay.Wire
