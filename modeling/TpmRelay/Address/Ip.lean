import TpmRelay.Bytes
import TpmRelay.Numeral

set_option autoImplicit false

namespace TpmRelay

structure Ipv4 where
  first : UInt8
  second : UInt8
  third : UInt8
  fourth : UInt8
  deriving DecidableEq, Repr

namespace Ipv4

def localhost : Ipv4 := ⟨127, 0, 0, 1⟩

def octets (ip : Ipv4) : Bytes :=
  [ip.first, ip.second, ip.third, ip.fourth]

def chars (ip : Ipv4) : List Char :=
  ['.'].intercalate (ip.octets.map fun octet => Numeral.digits 10 octet.toNat)

end Ipv4

structure Ipv6 where
  segments : List UInt16
  length_segments : segments.length = 8
  deriving DecidableEq, Repr

namespace Ipv6

def ofSegments? (segments : List UInt16) : Option Ipv6 :=
  if h : segments.length = 8 then some ⟨segments, h⟩ else none

def mapped? (ip : Ipv6) : Option Ipv4 :=
  match ip.segments with
  | [0, 0, 0, 0, 0, 0xffff, high, low] =>
    some ⟨(high >>> 8).toUInt8, high.toUInt8, (low >>> 8).toUInt8, low.toUInt8⟩
  | _ => none

def zerosFrom (segments : List UInt16) (start : Nat) : Nat :=
  ((segments.drop start).takeWhile (· = 0)).length

def longestZeros (segments : List UInt16) : Nat × Nat :=
  (List.range segments.length).foldl
    (fun best start =>
      let length := zerosFrom segments start
      if best.2 < length then (start, length) else best)
    (0, 0)

def segmentChars (segments : List UInt16) : List Char :=
  [':'].intercalate (segments.map fun segment => Numeral.digits 16 segment.toNat)

def chars (ip : Ipv6) : List Char :=
  match ip.mapped? with
  | some ipv4 => "::ffff:".toList ++ ipv4.chars
  | none =>
    let (start, length) := longestZeros ip.segments
    if length ≤ 1 then segmentChars ip.segments
    else segmentChars (ip.segments.take start) ++ [':', ':']
      ++ segmentChars (ip.segments.drop (start + length))

end Ipv6

inductive Ip where
  | v4 (ip : Ipv4)
  | v6 (ip : Ipv6)
  deriving DecidableEq, Repr

namespace Ip

def chars : Ip → List Char
  | v4 ip => ip.chars
  | v6 ip => ip.chars

def text (ip : Ip) : String :=
  String.ofList ip.chars

def isV4 : Ip → Bool
  | v4 _ => true
  | v6 _ => false

def unmapped : Ip → Ip
  | v4 ip => v4 ip
  | v6 ip => ip.mapped?.elim (v6 ip) v4

def isMulticast : Ip → Bool
  | v4 ip => ip.first &&& 0xf0 = 0xe0
  | v6 ip => ip.segments.head?.any fun segment => segment &&& 0xff00 = 0xff00

def isLinkLocal : Ip → Bool
  | v4 _ => false
  | v6 ip => ip.segments.head?.any fun segment => segment &&& 0xffc0 = 0xfe80

def isUnspecified : Ip → Bool
  | v4 ip => ip.octets.all (· = 0)
  | v6 ip => ip.segments.all (· = 0)

end Ip

namespace IpText

def expect (c : Char) : List Char → Option (List Char)
  | x :: rest => if x = c then some rest else none
  | [] => none

def numeral (radix width : Nat) (text : List Char) : Option (List Char × List Char) :=
  let digits := text.takeWhile (Numeral.isDigit radix)
  if digits = [] ∨ width < digits.length then none
  else some (digits, text.dropWhile (Numeral.isDigit radix))

def octet (text : List Char) : Option (UInt8 × List Char) := do
  let (digits, rest) ← numeral 10 3 text
  let n ← Numeral.value 10 digits
  if (digits.head? = some '0' ∧ 1 < digits.length) ∨ 255 < n then none
  else some (UInt8.ofNat n, rest)

def segment (text : List Char) : Option (UInt16 × List Char) := do
  let (digits, rest) ← numeral 16 4 text
  let n ← Numeral.value 16 digits
  some (UInt16.ofNat n, rest)

def ipv4 (text : List Char) : Option (Ipv4 × List Char) := do
  let (first, text) ← octet text
  let (second, text) ← octet (← expect '.' text)
  let (third, text) ← octet (← expect '.' text)
  let (fourth, text) ← octet (← expect '.' text)
  some (⟨first, second, third, fourth⟩, text)

def segments : Nat → Bool → List Char → List UInt16 × Bool × List Char
  | 0, _, text => ([], false, text)
  | left + 1, isFirst, text =>
    match if isFirst then some text else expect ':' text with
    | none => ([], false, text)
    | some body =>
      -- A dotted tail needs room for two segments.
      match if left = 0 then none else ipv4 body with
      | some (ip, rest) =>
        let word (high low : UInt8) := UInt16.ofNat (high.toNat * 256 + low.toNat)
        ([word ip.first ip.second, word ip.third ip.fourth], true, rest)
      | none =>
        match segment body with
        | none => ([], false, text)
        | some (first, rest) =>
          let (more, last) := segments left false rest
          (first :: more, last)

def ipv6 (text : List Char) : Option (Ipv6 × List Char) := do
  let (front, dotted, text) := segments 8 true text
  if front.length = 8 then
    (Ipv6.ofSegments? front).map (·, text)
  else if dotted then none
  else
    let text ← expect ':' (← expect ':' text)
    let (back, _, text) := segments (7 - front.length) true text
    let zeros := List.replicate (8 - (front.length + back.length)) 0
    (Ipv6.ofSegments? (front ++ zeros ++ back)).map (·, text)

end IpText

def Ip.parse (text : String) : Option Ip :=
  match IpText.ipv4 text.toList with
  | some (ip, rest) => if rest = [] then some (.v4 ip) else none
  | none =>
    match IpText.ipv6 text.toList with
    | some (ip, rest) => if rest = [] then some (.v6 ip) else none
    | none => none

end TpmRelay
