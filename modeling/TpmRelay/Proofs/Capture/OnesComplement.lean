import Mathlib.Algebra.Order.BigOperators.Group.List
import Mathlib.Algebra.Order.Ring.Nat
import TpmRelay.Capture.Checksum

set_option autoImplicit false

namespace TpmRelay.Checksum

def words : Bytes → List Nat
  | high :: low :: rest => (high.toNat * 256 + low.toNat) :: words rest
  | [last] => [last.toNat * 256]
  | [] => []

theorem wordSum_eq (data : Bytes) (sum : Nat) : wordSum data sum = sum + (words data).sum := by
  fun_induction wordSum data sum with
  | case1 sum high low rest ih => rw [ih, words, List.sum_cons, Nat.add_assoc]
  | case2 sum last => simp [words]
  | case3 sum => simp [words]

theorem words_append {first : Bytes} (even : first.length % 2 = 0) (second : Bytes) :
    words (first ++ second) = words first ++ words second := by
  fun_induction words first with
  | case1 high low rest ih =>
    rw [List.length_cons, List.length_cons] at even
    simp [words, ih (by omega)]
  | case2 last => simp at even
  | case3 => rfl

theorem length_words (data : Bytes) : (words data).length = (data.length + 1) / 2 := by
  fun_induction words data with
  | case1 high low rest ih =>
    rw [List.length_cons, ih, List.length_cons, List.length_cons]
    omega
  | case2 last => simp
  | case3 => rfl

theorem lt_of_mem_words {data : Bytes} {word : Nat} (member : word ∈ words data) :
    word < 65536 := by
  fun_induction words data with
  | case1 high low rest ih =>
    have := high.toNat_lt
    have := low.toNat_lt
    rcases List.mem_cons.mp member with rfl | later
    next => omega
    next => exact ih later
  | case2 last =>
    have := last.toNat_lt
    obtain rfl := List.mem_singleton.mp member
    omega
  | case3 => cases member

theorem sum_words_le (data : Bytes) : (words data).sum ≤ (data.length + 1) / 2 * 65535 := by
  have each (word : Nat) (member : word ∈ words data) : word ≤ 65535 := by
    have := lt_of_mem_words member
    omega
  have bound := List.sum_le_card_nsmul (words data) 65535 each
  rwa [length_words, Nat.nsmul_eq_mul] at bound

theorem words_bigEndian (n : Nat) : words (bigEndian 2 n) = [n % 65536] := by
  simp only [bigEndian, List.nil_append, List.cons_append, words, UInt8.toNat_ofNat']
  congr 1
  omega

theorem words_word (word : UInt16) : words (bigEndian 2 word.toNat) = [word.toNat] := by
  rw [words_bigEndian, Nat.mod_eq_of_lt word.toNat_lt]

def carries (sum : Nat) : List Nat :=
  if sum ≤ 0xFFFF then []
  else (sum % 65536 + sum / 65536) :: carries (sum % 65536 + sum / 65536)
termination_by sum
decreasing_by omega

def runningSums : Nat → List Nat → List Nat
  | sum, [] => [sum]
  | sum, summand :: summands => sum :: runningSums (sum + summand) summands

def partialSums (summands : List Nat) : List Nat :=
  runningSums 0 summands ++ carries summands.sum

theorem le_of_mem_carries {sum later : Nat} (member : later ∈ carries sum) : later ≤ sum := by
  fun_induction carries sum with
  | case1 sum small => cases member
  | case2 sum large ih =>
    rcases List.mem_cons.mp member with rfl | after
    next => omega
    next => exact (ih after).trans (by omega)

theorem le_of_mem_runningSums {start sum : Nat} {summands : List Nat}
    (member : sum ∈ runningSums start summands) : sum ≤ start + summands.sum := by
  induction summands generalizing start with
  | nil =>
    obtain rfl := List.mem_singleton.mp member
    simp
  | cons summand summands ih =>
    rw [List.sum_cons]
    rcases List.mem_cons.mp member with rfl | later
    next => omega
    next =>
      have bound := ih later
      omega

theorem le_of_mem_partialSums {summands : List Nat} {sum : Nat}
    (member : sum ∈ partialSums summands) : sum ≤ summands.sum := by
  rcases List.mem_append.mp member with adding | folding
  next => simpa using le_of_mem_runningSums adding
  next => exact le_of_mem_carries folding

theorem fold_le (sum : Nat) : fold sum ≤ 0xFFFF := by
  fun_induction fold sum with
  | case1 sum small => exact small
  | case2 sum large ih => exact ih

theorem fold_mod (sum : Nat) : fold sum % 0xFFFF = sum % 0xFFFF := by
  fun_induction fold sum with
  | case1 sum small => rfl
  | case2 sum large ih =>
    rw [ih]
    omega

theorem fold_pos {sum : Nat} (positive : 0 < sum) : 0 < fold sum := by
  fun_induction fold sum with
  | case1 sum small => exact positive
  | case2 sum large ih => exact ih (by omega)

theorem fold_eq_ones {sum : Nat} : fold sum = 0xFFFF ↔ 0 < sum ∧ sum % 0xFFFF = 0 := by
  have bound := fold_le sum
  have same := fold_mod sum
  constructor
  next =>
    intro ones
    refine ⟨?_, by omega⟩
    by_contra zero
    obtain rfl : sum = 0 := by omega
    simp [fold] at ones
  next =>
    rintro ⟨positive, multiple⟩
    have := fold_pos positive
    omega

theorem toNat_complement (sum : Nat) : (complement sum).toNat = 0xFFFF - fold sum := by
  rw [complement, UInt16.toNat_ofNat']
  omega

theorem fold_add_complement (sum : Nat) : fold (sum + (complement sum).toNat) = 0xFFFF := by
  have bound := fold_le sum
  have same := fold_mod sum
  rw [toNat_complement, fold_eq_ones]
  refine ⟨?_, by omega⟩
  by_contra zero
  obtain rfl : sum = 0 := by omega
  simp [fold] at zero

theorem fold_add_ones {sum : Nat} (zero : complement sum = 0) : fold (sum + 0xFFFF) = 0xFFFF := by
  have verified := fold_add_complement sum
  rw [zero, UInt16.toNat_zero, fold_eq_ones] at verified
  rw [fold_eq_ones]
  omega

end TpmRelay.Checksum
