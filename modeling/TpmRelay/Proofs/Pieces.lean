import Mathlib.Algebra.Order.Floor.Div
import TpmRelay.Hexdump

set_option autoImplicit false

namespace TpmRelay

variable {α : Type} {n : Nat} {items : List α}

@[simp] theorem chunksOf_nil : chunksOf n ([] : List α) = [] := by
  simp [chunksOf]

theorem chunksOf_eq_cons (positive : 0 < n) (some : items ≠ []) :
    chunksOf n items = items.take n :: chunksOf n (items.drop n) := by
  have split : ¬ (items = [] ∨ n = 0) := by
    rintro (none | zero)
    next => exact some none
    next => omega
  rw [chunksOf, if_neg split]

theorem chunksOf_induction {motive : List α → Prop} (positive : 0 < n) (nil : motive [])
    (piece : ∀ items, items ≠ [] → motive (items.drop n) → motive items) (items : List α) :
    motive items := by
  induction measured : items.length using Nat.strongRecOn generalizing items with
  | ind size ih =>
    by_cases none : items = []
    next => exact none ▸ nil
    next =>
      have some : items.length ≠ 0 := by simpa using none
      refine piece items none (ih _ ?_ _ rfl)
      rw [List.length_drop]
      omega

theorem flatten_chunksOf (positive : 0 < n) (items : List α) :
    (chunksOf n items).flatten = items := by
  induction items using chunksOf_induction positive with
  | nil => simp
  | piece items some ih =>
    rw [chunksOf_eq_cons positive some, List.flatten_cons, ih, List.take_append_drop]

theorem length_chunksOf (positive : 0 < n) (items : List α) :
    (chunksOf n items).length = items.length ⌈/⌉ n := by
  induction items using chunksOf_induction positive with
  | nil => simp
  | piece items some ih =>
    have size : 0 < items.length := List.length_pos_iff.mpr some
    rw [chunksOf_eq_cons positive some, List.length_cons, ih, List.length_drop,
      Nat.ceilDiv_eq_add_pred_div, Nat.ceilDiv_eq_add_pred_div]
    by_cases last : items.length ≤ n
    next =>
      have none : items.length - n = 0 := by omega
      have one : items.length + n - 1 = n + (items.length - 1) := by omega
      rw [none, one, Nat.add_div_left _ positive, Nat.div_eq_of_lt (by omega),
        Nat.div_eq_of_lt (by omega)]
    next =>
      have more : items.length + n - 1 = items.length - n + n - 1 + n := by omega
      rw [more, Nat.add_div_right _ positive]

theorem chunksOf_eq_map (positive : 0 < n) (items : List α) :
    chunksOf n items =
      (List.range (items.length ⌈/⌉ n)).map fun i => (items.drop (i * n)).take n := by
  rw [← length_chunksOf positive]
  induction items using chunksOf_induction positive with
  | nil => simp
  | piece items some ih =>
    rw [chunksOf_eq_cons positive some, List.length_cons, List.range_succ_eq_map, List.map_cons,
      List.map_map]
    congr 1
    next => simp
    next =>
      conv_lhs => rw [ih]
      apply List.map_congr_left
      intro i _
      simp [List.drop_drop, Nat.succ_mul, Nat.add_comm]

theorem mem_chunksOf (positive : 0 < n) {piece : List α} (member : piece ∈ chunksOf n items) :
    piece ≠ [] ∧ piece.length ≤ n := by
  induction items using chunksOf_induction positive with
  | nil => simp at member
  | piece items some ih =>
    rw [chunksOf_eq_cons positive some, List.mem_cons] at member
    rcases member with rfl | later
    next =>
      refine ⟨?_, List.length_take_le n items⟩
      simp only [ne_eq, List.take_eq_nil_iff, not_or]
      exact ⟨by omega, some⟩
    next => exact ih later

end TpmRelay
