import Mathlib.Data.Nat.ModEq
import TpmRelay.Proofs.Capture.OnesComplement

set_option autoImplicit false

namespace TpmRelay.Checksum

/-- The number from 1 to 65535 that the sum is congruent to, and zero for zero alone. -/
structure Represents (folded sum : Nat) : Prop where
  congruent : folded ≡ sum [MOD 65535]
  le : folded ≤ 65535
  zero : folded = 0 ↔ sum = 0

theorem represents_fold (sum : Nat) : Represents (fold sum) sum := by
  refine ⟨fold_mod sum, fold_le sum, ?_, ?_⟩
  next =>
    intro zero
    by_contra positive
    exact (fold_pos (Nat.pos_of_ne_zero positive)).ne' zero
  next =>
    rintro rfl
    simp [fold]

-- Addition of 32 bits, where what does not fit is no sum.
def add? (first second : UInt32) : Option UInt32 :=
  if first.toNat + second.toNat < 2 ^ 32 then some (first + second) else none

def wordSum? : Bytes → UInt32 → Option UInt32
  | high :: low :: rest, sum =>
    (add? sum (high.toUInt32 <<< 8 ||| low.toUInt32)).bind (wordSum? rest)
  | [last], sum => add? sum (last.toUInt32 <<< 8)
  | [], sum => some sum

/-- The runs of the folding loop: the carry is added to the low half as long as there is one. -/
inductive FoldsTo : UInt32 → UInt32 → Prop where
  | done {sum : UInt32} (small : sum ≤ 0xFFFF) : FoldsTo sum sum
  | carry {sum next folded : UInt32} (large : 0xFFFF < sum)
      (added : add? (sum &&& 0xFFFF) (sum >>> 16) = some next) (later : FoldsTo next folded) :
      FoldsTo sum folded

/-- All additions stay within 32 bits, the loop ends, and this is what it gives. -/
def FoldedSum (data : Bytes) (folded : UInt32) : Prop :=
  ∃ sum, wordSum? data 0 = some sum ∧ FoldsTo sum folded

theorem add?_eq_some {first second sum : UInt32} :
    add? first second = some sum ↔ sum.toNat = first.toNat + second.toNat := by
  have bound := sum.toNat_lt
  rw [add?]
  split
  next fits =>
    rw [Option.some_inj, ← UInt32.toNat_inj, UInt32.toNat_add, Nat.mod_eq_of_lt fits, eq_comm]
  next exceeds =>
    simp only [reduceCtorEq, false_iff]
    omega

theorem toNat_word (high low : UInt8) :
    (high.toUInt32 <<< 8 ||| low.toUInt32).toNat = high.toNat * 256 + low.toNat := by
  have := high.toNat_lt
  have small := low.toNat_lt
  have shifted : (high.toUInt32 <<< 8).toNat = 2 ^ 8 * high.toNat := by
    have place : ((8 : UInt32).toNat % 32) = 8 := rfl
    rw [UInt32.toNat_shiftLeft, UInt8.toNat_toUInt32, place, Nat.shiftLeft_eq]
    omega
  rw [UInt32.toNat_or, shifted, UInt8.toNat_toUInt32, ← Nat.two_pow_add_eq_or_of_lt small]
  omega

theorem toNat_lastWord (last : UInt8) : (last.toUInt32 <<< 8).toNat = last.toNat * 256 := by
  simpa using toNat_word last 0

theorem wordSum?_eq_some {data : Bytes} {start sum : UInt32} :
    wordSum? data start = some sum ↔ sum.toNat = start.toNat + (words data).sum := by
  fun_induction words data generalizing start with
  | case1 high low rest ih =>
    rw [wordSum?, Option.bind_eq_some_iff, List.sum_cons]
    simp only [add?_eq_some, toNat_word, ih]
    constructor
    next =>
      rintro ⟨next, added, later⟩
      omega
    next =>
      intro total
      have bound := sum.toNat_lt
      have fits : start.toNat + (high.toNat * 256 + low.toNat) < 2 ^ 32 := by omega
      have added := UInt32.toNat_ofNat_of_lt' fits
      refine ⟨_, added, ?_⟩
      rw [added]
      omega
  | case2 last => rw [wordSum?, add?_eq_some, toNat_lastWord, List.sum_singleton]
  | case3 =>
    rw [wordSum?, Option.some_inj, ← UInt32.toNat_inj, List.sum_nil, Nat.add_zero, eq_comm]

theorem carry_eq_some {sum next : UInt32} :
    add? (sum &&& 0xFFFF) (sum >>> 16) = some next ↔
      next.toNat = sum.toNat % 65536 + sum.toNat / 65536 := by
  have low : (sum &&& 0xFFFF).toNat = sum.toNat % 65536 := by
    rw [UInt32.toNat_and]
    exact Nat.and_two_pow_sub_one_eq_mod _ 16
  have high : (sum >>> 16).toNat = sum.toNat / 65536 := by
    rw [UInt32.toNat_shiftRight]
    exact Nat.shiftRight_eq_div_pow _ 16
  rw [add?_eq_some, low, high]

theorem FoldsTo.toNat_eq {sum folded : UInt32} (run : FoldsTo sum folded) :
    folded.toNat = fold sum.toNat := by
  induction run with
  | @done sum small =>
    have within : sum.toNat ≤ 0xFFFF := UInt32.le_iff_toNat_le.mp small
    rw [fold, if_pos within]
  | @carry sum next folded large added _ ih =>
    have exceeds : ¬ sum.toNat ≤ 0xFFFF := Nat.not_le_of_lt (UInt32.lt_iff_toNat_lt.mp large)
    rw [ih, carry_eq_some.mp added, fold.eq_1 sum.toNat, if_neg exceeds]

theorem exists_foldsTo (sum : UInt32) : ∃ folded, FoldsTo sum folded := by
  induction measured : sum.toNat using Nat.strongRecOn generalizing sum with
  | ind size ih =>
    by_cases small : sum ≤ 0xFFFF
    next => exact ⟨sum, .done small⟩
    next =>
      have bound := sum.toNat_lt
      have large : 0xFFFF < sum.toNat := Nat.lt_of_not_le (small <| UInt32.le_iff_toNat_le.mpr ·)
      have fits : sum.toNat % 65536 + sum.toNat / 65536 < 2 ^ 32 := by omega
      have total := UInt32.toNat_ofNat_of_lt' fits
      obtain ⟨folded, later⟩ := ih _ (by omega) _ total
      exact ⟨folded, .carry (UInt32.lt_iff_toNat_lt.mpr large) (carry_eq_some.mpr total) later⟩

theorem foldedSum_iff {data : Bytes} {folded : UInt32} :
    FoldedSum data folded ↔
      (words data).sum < 2 ^ 32 ∧ folded.toNat = fold (words data).sum := by
  constructor
  next =>
    rintro ⟨sum, added, run⟩
    have total := wordSum?_eq_some.mp added
    rw [UInt32.toNat_zero, Nat.zero_add] at total
    rw [← total]
    exact ⟨sum.toNat_lt, run.toNat_eq⟩
  next =>
    rintro ⟨bounded, same⟩
    have total := UInt32.toNat_ofNat_of_lt' bounded
    obtain ⟨folded', run⟩ := exists_foldsTo (.ofNat (words data).sum)
    have result := run.toNat_eq
    rw [total, ← same, UInt32.toNat_inj] at result
    subst result
    refine ⟨_, wordSum?_eq_some.mpr ?_, run⟩
    rw [total, UInt32.toNat_zero, Nat.zero_add]

def store (offset : Nat) (word : UInt16) (data : Bytes) : Bytes :=
  data.take offset ++ bigEndian 2 word.toNat ++ data.drop (offset + 2)

theorem sum_words_store {data : Bytes} {offset : Nat} (even : offset % 2 = 0)
    (zeros : (data.drop offset).take 2 = [0, 0]) (word : UInt16) :
    (words (store offset word data)).sum = (words data).sum + word.toNat := by
  have inside : offset + 2 ≤ data.length := by
    have size := congrArg List.length zeros
    simp only [List.length_take, List.length_drop, List.length_cons, List.length_nil] at size
    omega
  have split : data = data.take offset ++ [0, 0] ++ data.drop (offset + 2) := by
    rw [← zeros, List.append_assoc, ← List.drop_drop, List.take_append_drop,
      List.take_append_drop]
  have front : (data.take offset).length % 2 = 0 := by
    rw [List.length_take]
    omega
  have sums (middle : Bytes) (pair : middle.length = 2) :
      (words (data.take offset ++ middle ++ data.drop (offset + 2))).sum =
        (words (data.take offset)).sum + (words middle).sum +
          (words (data.drop (offset + 2))).sum := by
    rw [words_append (by rw [List.length_append]; omega), words_append front, List.sum_append,
      List.sum_append]
  conv_rhs => rw [split]
  have none : (words [0, 0]).sum = 0 := rfl
  rw [store, sums _ (length_bigEndian _ _), sums _ rfl, words_word, List.sum_singleton, none]
  omega

theorem add_complement_lt {sum : Nat} (bounded : sum < 2 ^ 32) :
    sum + (complement sum).toNat < 2 ^ 32 := by
  have verified := (fold_eq_ones.mp (fold_add_complement sum)).2
  have bound := (complement sum).toNat_lt
  rw [toNat_complement] at verified bound ⊢
  by_cases zero : sum = 0
  next =>
    subst zero
    omega
  next =>
    have := fold_pos (Nat.pos_of_ne_zero zero)
    omega

theorem internetChecksum_eq (data : Bytes) :
    internetChecksum data = complement (words data).sum := by
  rw [internetChecksum, wordSum_eq, Nat.zero_add]

theorem not_folded {sum : Nat} {folded : UInt32} (same : folded.toNat = fold sum) :
    ~~~ folded.toUInt16 = complement sum := by
  have bound := fold_le sum
  apply UInt16.toNat_inj.mp
  rw [toNat_complement, UInt16.toNat_not, UInt32.toNat_toUInt16, same, Nat.mod_eq_of_lt (by omega)]
  rfl

theorem checksum_complements_residue {data : Bytes} (bounded : (words data).sum < 2 ^ 32) :
    (∃ folded, FoldedSum data folded ∧ folded.toNat = fold (wordSum data 0) ∧
      Represents folded.toNat (words data).sum ∧ internetChecksum data = ~~~ folded.toUInt16) ∧
    (∀ other, (words other).Perm (words data) → internetChecksum other = internetChecksum data) ∧
    ∀ offset, offset % 2 = 0 → (data.drop offset).take 2 = [0, 0] →
      let stored := store offset (internetChecksum data) data
      FoldedSum stored 0xFFFF ∧ fold (wordSum stored 0) = 0xFFFF := by
  refine ⟨?_, ?_, ?_⟩
  next =>
    have small : fold (words data).sum < 2 ^ 32 := (fold_le _).trans_lt (by decide)
    have same := UInt32.toNat_ofNat_of_lt' small
    refine ⟨.ofNat (fold (words data).sum), foldedSum_iff.mpr ⟨bounded, same⟩, ?_, ?_, ?_⟩
    next => rw [same, wordSum_eq, Nat.zero_add]
    next =>
      rw [same]
      exact represents_fold _
    next => rw [internetChecksum_eq, not_folded same]
  next =>
    intro other order
    rw [internetChecksum_eq, internetChecksum_eq, order.sum_eq]
  next =>
    intro offset even zeros stored
    have total : (words stored).sum = (words data).sum + (complement (words data).sum).toNat := by
      rw [sum_words_store even zeros, internetChecksum_eq]
    have fits := add_complement_lt bounded
    have verified := fold_add_complement (words data).sum
    rw [← total] at fits verified
    refine ⟨foldedSum_iff.mpr ⟨fits, verified.symm⟩, ?_⟩
    rw [wordSum_eq, Nat.zero_add, verified]

theorem double_carry_complements :
    let data : Bytes := [0xFF, 0xFF, 0, 0, 0xFF, 0xFF, 0, 1]
    (words data).sum < 2 ^ 32 ∧
    (∃ folded, FoldedSum data folded ∧ internetChecksum data = ~~~ folded.toUInt16) ∧
    internetChecksum [0, 1, 0xFF, 0xFF, 0xFF, 0xFF, 0, 0] = internetChecksum data ∧
    FoldedSum (store 2 (internetChecksum data) data) 0xFFFF := by
  intro data
  have bounded : (words data).sum < 2 ^ 32 := by decide
  obtain ⟨⟨folded, sum, _, _, value⟩, order, verified⟩ := checksum_complements_residue bounded
  exact ⟨bounded, ⟨folded, sum, value⟩, order _ (by decide), (verified 2 rfl rfl).1⟩

example : internetChecksum [0x00, 0x01, 0xF2, 0x03, 0xF4, 0xF5, 0xF6, 0xF7] = 0x220D := by cbv

end TpmRelay.Checksum
