import TpmRelay.Bytes
import TpmRelay.Numeral

set_option autoImplicit false

namespace TpmRelay

def chunksOf {α : Type} (n : Nat) (items : List α) : List (List α) :=
  if items = [] ∨ n = 0 then [] else items.take n :: chunksOf n (items.drop n)
termination_by items.length
decreasing_by
  rename_i h
  have : items.length ≠ 0 := by simp_all
  simp only [List.length_drop]
  omega

namespace Hexdump

def lineWidth : Nat := 16

def line (offset : Nat) (bytes : Bytes) : List Char :=
  Numeral.padded 8 16 offset ++
    ':' :: bytes.flatMap fun byte => ' ' :: Numeral.padded 2 16 byte.toNat

def lines (data : Bytes) : List (List Char) :=
  (chunksOf lineWidth data).mapIdx fun i bytes => line (i * lineWidth) bytes

end Hexdump

def hexdump (data : Bytes) : String :=
  "\n".intercalate ((Hexdump.lines data).map String.ofList)

end TpmRelay
