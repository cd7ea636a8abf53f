import TpmRelay.Bytes
import TpmRelay.Fault

set_option autoImplicit false

namespace TpmRelay.Wire

inductive ScalarType where
  | u8
  | u16
  | u32
  | i32
  deriving DecidableEq, Repr

def ScalarType.size : ScalarType → Nat
  | u8 => 1
  | u16 => 2
  | u32 | i32 => 4

inductive Scalar where
  | u8 (n : UInt8)
  | u16 (n : UInt16)
  | u32 (n : UInt32)
  | i32 (n : Int32)
  deriving DecidableEq, Repr

namespace Scalar

def type : Scalar → ScalarType
  | u8 _ => .u8
  | u16 _ => .u16
  | u32 _ => .u32
  | i32 _ => .i32

def toInt : Scalar → Int
  | u8 n => n.toNat
  | u16 n => n.toNat
  | u32 n => n.toNat
  | i32 n => n.toInt

def bits : Scalar → Nat
  | u8 n => n.toNat
  | u16 n => n.toNat
  | u32 n => n.toNat
  | i32 n => n.toUInt32.toNat

def encode (scalar : Scalar) : Bytes :=
  bigEndian scalar.type.size scalar.bits

def ofBits : ScalarType → Nat → Scalar
  | .u8, n => u8 (UInt8.ofNat n)
  | .u16, n => u16 (UInt16.ofNat n)
  | .u32, n => u32 (UInt32.ofNat n)
  | .i32, n => i32 (UInt32.ofNat n).toInt32

-- Out of range integers wrap around.
def ofInt (type : ScalarType) (n : Int) : Scalar :=
  ofBits type (n % (Nat.pow 256 type.size : Nat)).toNat

@[simp] theorem length_encode (scalar : Scalar) : scalar.encode.length = scalar.type.size := by
  simp [encode]

end Scalar

-- A read that is cut short takes what there is.
def ScalarType.read (type : ScalarType) (input : Bytes) : Option Scalar × Bytes :=
  match splitExactly type.size input with
  | some (front, rest) => (some (.ofBits type (ofBigEndian front)), rest)
  | none => (none, [])

def readScalars : List ScalarType → Bytes → Option (List Scalar) × Bytes
  | [], input => (some [], input)
  | type :: types, input =>
    match type.read input with
    | (some scalar, rest) =>
      let (scalars, left) := readScalars types rest
      (scalars.map (scalar :: ·), left)
    | (none, left) => (none, left)

def cutShort : Fault := ⟨.unexpectedEnd, some "unexpected end of file"⟩

def readTuple (types : List ScalarType) (input : Bytes) : Except Fault (List Scalar) × Bytes :=
  match readScalars types input with
  | (some scalars, left) => (.ok scalars, left)
  | (none, left) => (.error cutShort, left)

end TpmRelay.Wire
