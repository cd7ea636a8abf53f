import Mathlib.Data.List.Basic
import Mathlib.Data.List.Induction
import Mathlib.Data.Nat.Digits.Defs
import Mathlib.Tactic.IntervalCases
import TpmRelay.Numeral

set_option autoImplicit false

namespace TpmRelay.Numeral

def Denotes (radix : Nat) (text : List Char) (n : Nat) : Prop :=
  ∃ places : List Nat, places ≠ [] ∧ n = Nat.ofDigits radix places.reverse ∧
    ∃ digits, (text = digits ∨ text = '+' :: digits) ∧
      digits.map (digitValue radix) = places.map some

section Reading

variable {radix bound n : Nat} {text : List Char}

theorem value_append_singleton (text : List Char) (c : Char) :
    value radix (text ++ [c]) =
      (value radix text).bind fun n => (digitValue radix c).map (n * radix + ·) := by
  simp [value]

theorem value_eq_some :
    value radix text = some n ↔
      ∃ places : List Nat, n = Nat.ofDigits radix places.reverse ∧
        text.map (digitValue radix) = places.map some := by
  induction text using List.reverseRecOn generalizing n with
  | nil =>
    constructor
    next =>
      intro zero
      refine ⟨[], ?_, rfl⟩
      simpa [value] using zero.symm
    next =>
      rintro ⟨places, rfl, same⟩
      obtain rfl : places = [] := by simpa using same.symm
      rfl
  | append_singleton text c ih =>
    rw [value_append_singleton, Option.bind_eq_some_iff]
    constructor
    next =>
      rintro ⟨front, read, last⟩
      obtain ⟨places, rfl, same⟩ := ih.mp read
      obtain ⟨place, digit, rfl⟩ := Option.map_eq_some_iff.mp last
      refine ⟨places ++ [place], ?_, by simp [same, digit]⟩
      rw [List.reverse_append, List.reverse_singleton, List.singleton_append, Nat.ofDigits_cons]
      simp [Nat.mul_comm, Nat.add_comm]
    next =>
      rintro ⟨places, rfl, same⟩
      rw [List.map_append, List.map_singleton] at same
      obtain ⟨front, last, rfl, first, second⟩ := List.append_eq_map_iff.mp same
      obtain ⟨place, rfl, digit⟩ := List.map_eq_singleton_iff.mp second
      refine ⟨_, ih.mpr ⟨front, rfl, first.symm⟩, ?_⟩
      rw [← digit, List.reverse_append, List.reverse_singleton, List.singleton_append,
        Nat.ofDigits_cons]
      simp [Nat.mul_comm, Nat.add_comm]

theorem digitValue_plus : digitValue radix '+' = none := by
  simp [digitValue]

theorem not_isDigit_of_le {small large : Nat} (within : small ≤ large) {c : Char}
    (other : isDigit large c = false) : isDigit small c = false := by
  simp only [isDigit, digitValue] at other ⊢
  grind

variable (radix) in
theorem withoutPlus_of_digitValue (digit : ∀ c ∈ text.head?, (digitValue radix c).isSome) :
    withoutPlus text = text := by
  unfold withoutPlus
  split
  next => simp [digitValue_plus] at digit
  next => rfl

theorem denotes_iff :
    Denotes radix text n ↔ withoutPlus text ≠ [] ∧ value radix (withoutPlus text) = some n := by
  constructor
  next =>
    rintro ⟨places, nonempty, total, digits, split, same⟩
    have stripped : withoutPlus text = digits := by
      rcases split with rfl | rfl
      next =>
        apply withoutPlus_of_digitValue radix
        intro c first
        obtain ⟨rest, rfl⟩ := List.head?_eq_some_iff.mp first
        obtain ⟨place, more, rfl⟩ := List.exists_cons_of_ne_nil nonempty
        simp [(List.cons_eq_cons.mp same).1]
      next => rfl
    rw [stripped]
    refine ⟨?_, value_eq_some.mpr ⟨places, total, same⟩⟩
    rintro rfl
    exact nonempty (by simpa using same.symm)
  next =>
    rintro ⟨nonempty, read⟩
    obtain ⟨places, total, same⟩ := value_eq_some.mp read
    refine ⟨places, ?_, total, withoutPlus text, ?_, same⟩
    next =>
      rintro rfl
      exact nonempty (by simpa using same)
    next =>
      unfold withoutPlus
      split
      next => exact .inr rfl
      next => exact .inl rfl

theorem denotes_unique {m : Nat} (one : Denotes radix text n) (two : Denotes radix text m) :
    n = m := by
  have first := (denotes_iff.mp one).2
  have second := (denotes_iff.mp two).2
  exact Option.some.inj (first.symm.trans second)

theorem parse_eq_some : parse radix bound text = some n ↔ n ≤ bound ∧ Denotes radix text n := by
  rw [denotes_iff, parse]
  split
  next empty => simp [empty]
  next nonempty => simpa [Option.filter_eq_some_iff, and_comm] using fun _ _ => nonempty

end Reading

section Printing

variable {radix : Nat}

theorem digits_of_lt {n : Nat} (small : n < radix) : digits radix n = [Nat.digitChar n] := by
  rw [digits, if_pos (.inl small)]

theorem digits_of_le {n : Nat} (base : 2 ≤ radix) (large : radix ≤ n) :
    digits radix n = digits radix (n / radix) ++ [Nat.digitChar (n % radix)] := by
  rw [digits, if_neg (by omega)]

theorem digits_induction {motive : Nat → Prop} (base : 2 ≤ radix)
    (single : ∀ n < radix, motive n) (last : ∀ n, radix ≤ n → motive (n / radix) → motive n)
    (n : Nat) : motive n := by
  induction n using Nat.strongRecOn with
  | ind n ih =>
    by_cases small : n < radix
    next => exact single n small
    next => exact last n (by omega) (ih _ (Nat.div_lt_self (by omega) (by omega)))

theorem digits_ne_nil (base : 2 ≤ radix) (n : Nat) : digits radix n ≠ [] := by
  induction n using digits_induction base with
  | single n small => simp [digits_of_lt small]
  | last n large ih => simp [digits_of_le base large]

section Digits

variable (base : 2 ≤ radix)
include base

theorem digits_eq_map {n : Nat} (positive : 0 < n) :
    digits radix n = (Nat.digits radix n).reverse.map Nat.digitChar := by
  induction n using digits_induction base with
  | single n small =>
    rw [digits_of_lt small, Nat.digits_of_lt radix n (by omega) small]
    rfl
  | last n large ih =>
    have later : Nat.digits radix n = n % radix :: Nat.digits radix (n / radix) :=
      Nat.digits_eq_cons_digits_div (by omega) (by omega)
    rw [digits_of_le base large, ih (Nat.div_pos large (by omega)), later, List.reverse_cons,
      List.map_append]
    rfl

theorem padded_eq_leftpad {width : Nat} (some : 0 < width) (n : Nat) :
    padded width radix n = ((Nat.digits radix n).reverse.map Nat.digitChar).leftpad width '0' := by
  rcases Nat.eq_zero_or_pos n with rfl | positive
  next =>
    obtain ⟨places, rfl⟩ := Nat.exists_eq_succ_of_ne_zero some.ne'
    have zero : digits radix 0 = ['0'] := digits_of_lt (by omega)
    simp [padded, List.leftpad, zero, List.replicate_succ']
  next => rw [padded, digits_eq_map base positive, List.leftpad]

theorem padded_two {n : Nat} (small : n < radix ^ 2) :
    padded 2 radix n = [Nat.digitChar (n / radix), Nat.digitChar (n % radix)] := by
  by_cases single : n < radix
  next =>
    simp [padded, digits_of_lt single, Nat.div_eq_of_lt single, Nat.mod_eq_of_lt single]
  next =>
    have quotient : n / radix < radix := Nat.div_lt_of_lt_mul (by rwa [← pow_two])
    simp [padded, digits_of_le base (Nat.le_of_not_lt single), digits_of_lt quotient]

end Digits

variable (base : 2 ≤ radix) (hex : radix ≤ 16)
include base hex

theorem digitValue_digitChar {place : Nat} (small : place < radix) :
    digitValue radix (Nat.digitChar place) = some place := by
  have bounded : place < 16 := by omega
  interval_cases place <;> simp [digitValue, Nat.digitChar] <;> omega

theorem value_digits (n : Nat) : value radix (digits radix n) = some n := by
  induction n using digits_induction base with
  | single n small => simp [digits_of_lt small, value, digitValue_digitChar base hex small]
  | last n large ih =>
    have place : n % radix < radix := Nat.mod_lt n (by omega)
    rw [digits_of_le base large, value_append_singleton, ih, Option.bind_some,
      digitValue_digitChar base hex place, Option.map_some, Nat.div_add_mod']

theorem isDigit_of_mem_digits {n : Nat} {c : Char} (member : c ∈ digits radix n) :
    isDigit radix c := by
  induction n using digits_induction base with
  | single n small =>
    rw [digits_of_lt small, List.mem_singleton] at member
    simp [isDigit, member, digitValue_digitChar base hex small]
  | last n large ih =>
    have place : n % radix < radix := Nat.mod_lt n (by omega)
    rw [digits_of_le base large, List.mem_append, List.mem_singleton] at member
    rcases member with front | rfl
    next => exact ih front
    next => simp [isDigit, digitValue_digitChar base hex place]

theorem not_mem_digits {n : Nat} {c : Char} (other : isDigit radix c = false) :
    c ∉ digits radix n := by
  intro member
  have digit := isDigit_of_mem_digits base hex member
  rw [other] at digit
  contradiction

theorem not_mem_padded {width n : Nat} {c : Char} (other : isDigit radix c = false) :
    c ∉ padded width radix n := by
  rw [padded, List.mem_append, List.mem_replicate]
  rintro (⟨-, rfl⟩ | digit)
  next => simp [isDigit, digitValue, show 0 < radix by omega] at other
  next => exact not_mem_digits base hex other digit

theorem withoutPlus_digits (n : Nat) : withoutPlus (digits radix n) = digits radix n := by
  apply withoutPlus_of_digitValue radix
  intro c first
  exact isDigit_of_mem_digits base hex (List.mem_of_mem_head? first)

theorem parse_digits {bound n : Nat} (within : n ≤ bound) :
    parse radix bound (digits radix n) = some n := by
  apply parse_eq_some.mpr
  refine ⟨within, denotes_iff.mpr ?_⟩
  rw [withoutPlus_digits base hex]
  exact ⟨digits_ne_nil base n, value_digits base hex n⟩

omit hex in
theorem length_digits_le {n places : Nat} (fits : n < radix ^ (places + 1)) :
    (digits radix n).length ≤ places + 1 := by
  induction places generalizing n with
  | zero =>
    rw [zero_add, pow_one] at fits
    simp [digits_of_lt fits]
  | succ places ih =>
    by_cases small : n < radix
    next => simp [digits_of_lt small]
    next =>
      have quotient : n / radix < radix ^ (places + 1) := by
        apply Nat.div_lt_of_lt_mul
        rwa [← pow_succ']
      rw [digits_of_le base (by omega), List.length_append, List.length_singleton]
      exact Nat.add_le_add_right (ih quotient) 1

theorem head_digits {n : Nat} (zero : (digits radix n).head? = some '0') : n = 0 := by
  induction n using digits_induction base with
  | single n small =>
    have digit := digitValue_digitChar base hex small
    rw [digits_of_lt small, List.head?_singleton, Option.some_inj] at zero
    rw [zero] at digit
    simpa [digitValue, show 0 < radix by omega] using digit.symm
  | last n large ih =>
    rw [digits_of_le base large, List.head?_append_of_ne_nil _ (digits_ne_nil base _)] at zero
    have quotient := Nat.div_pos large (by omega)
    rw [ih zero] at quotient
    omega

end Printing

end TpmRelay.Numeral
