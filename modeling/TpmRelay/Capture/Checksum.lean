import TpmRelay.Bytes

set_option autoImplicit false

namespace TpmRelay.Checksum

-- An odd last byte is the high half of a word.
def wordSum : Bytes → Nat → Nat
  | high :: low :: rest, sum => wordSum rest (sum + (high.toNat * 256 + low.toNat))
  | [last], sum => sum + last.toNat * 256
  | [], sum => sum

def fold (sum : Nat) : Nat :=
  if sum ≤ 0xFFFF then sum else fold (sum % 65536 + sum / 65536)
termination_by sum
decreasing_by omega

def complement (sum : Nat) : UInt16 :=
  UInt16.ofNat (0xFFFF - fold sum)

def internetChecksum (data : Bytes) : UInt16 :=
  complement (wordSum data 0)

end TpmRelay.Checksum
