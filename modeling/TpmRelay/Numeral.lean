set_option autoImplicit false

namespace TpmRelay.Numeral

def digits (radix n : Nat) : List Char :=
  if n < radix ∨ radix < 2 then [Nat.digitChar n]
  else digits radix (n / radix) ++ [Nat.digitChar (n % radix)]
termination_by n
decreasing_by exact Nat.div_lt_self (by omega) (by omega)

def padded (width radix n : Nat) : List Char :=
  let text := digits radix n
  List.replicate (width - text.length) '0' ++ text

def decimal (n : Nat) : String :=
  String.ofList (digits 10 n)

def octal (n : Nat) : String :=
  String.ofList (digits 8 n)

def hex (width n : Nat) : String :=
  String.ofList (padded width 16 n)

def digitValue (radix : Nat) (c : Char) : Option Nat :=
  let value :=
    if '0' ≤ c ∧ c ≤ '9' then c.toNat - 48
    else if 'a' ≤ c ∧ c ≤ 'z' then c.toNat - 87
    else if 'A' ≤ c ∧ c ≤ 'Z' then c.toNat - 55
    else radix
  if value < radix then some value else none

def isDigit (radix : Nat) (c : Char) : Bool :=
  (digitValue radix c).isSome

def value (radix : Nat) (text : List Char) : Option Nat :=
  text.foldl (fun n c => n.bind fun n => (digitValue radix c).map (n * radix + ·)) (some 0)

def withoutPlus : List Char → List Char
  | '+' :: text => text
  | text => text

def parse (radix bound : Nat) (text : List Char) : Option Nat :=
  match withoutPlus text with
  | [] => none
  | digits => (value radix digits).filter (· ≤ bound)

end TpmRelay.Numeral
