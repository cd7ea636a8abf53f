import Mathlib.Data.List.Forall2
import Mathlib.Data.List.TakeWhile
import TpmRelay.Address.Options

set_option autoImplicit false

namespace TpmRelay

namespace Options

def Spells (piece : List Char) (setting : Setting) : Prop :=
  '=' ∉ setting.key.toList ∧
    (piece = setting.key.toList ++ '=' :: setting.value.toList ∨
      piece = setting.key.toList ∧ setting.value = "")

theorem pieces_eq_splitOn (separator : Char) (text : List Char) :
    pieces separator text = text.splitOn separator := by
  induction text with
  | nil => rfl
  | cons c text ih =>
    rw [pieces, List.splitOn_cons_eq_if_modifyHead, ih]
    by_cases here : c = separator
    next => simp [here]
    next =>
      obtain ⟨piece, more, split⟩ := List.exists_cons_of_ne_nil (List.splitOn_ne_nil separator text)
      simp [here, split]

theorem not_mem_of_mem_splitOn {separator : Char} {text piece : List Char}
    (member : piece ∈ text.splitOn separator) : separator ∉ piece := by
  induction text generalizing piece with
  | nil =>
    rw [List.splitOn_nil, List.mem_singleton] at member
    simp [member]
  | cons c text ih =>
    obtain ⟨first, more, split⟩ := List.exists_cons_of_ne_nil (List.splitOn_ne_nil separator text)
    rw [List.splitOn_cons_eq_if_modifyHead, split] at member
    rw [split] at ih
    by_cases here : c = separator
    next =>
      simp only [here, BEq.rfl, if_true, List.mem_cons] at member
      rcases member with rfl | member
      next => simp
      next => exact ih (List.mem_cons.mpr member)
    next =>
      simp only [beq_iff_eq, here, if_false, List.modifyHead_cons, List.mem_cons] at member
      rcases member with rfl | member
      next =>
        have first := ih List.mem_cons_self
        simp [first, Ne.symm here]
      next => exact ih (List.mem_cons_of_mem _ member)

section Setting

variable {key : List Char} (plain : '=' ∉ key)
include plain

theorem differs_of_not_mem : ∀ c ∈ key, decide (c ≠ '=') := by
  intro c member
  apply decide_eq_true
  rintro rfl
  exact plain member

theorem setting_assigned (value : List Char) :
    setting (key ++ '=' :: value) = ⟨String.ofList key, String.ofList value⟩ := by
  simp only [setting, List.takeWhile_append_of_pos (differs_of_not_mem plain),
    List.dropWhile_append_of_pos (differs_of_not_mem plain)]
  simp

theorem setting_bare : setting key = ⟨String.ofList key, ""⟩ := by
  have taken : key.takeWhile (· ≠ '=') = key :=
    List.takeWhile_eq_self_iff.mpr (differs_of_not_mem plain)
  have dropped : key.dropWhile (· ≠ '=') = [] :=
    List.dropWhile_eq_nil_iff.mpr (differs_of_not_mem plain)
  simp only [setting, taken, dropped]
  rfl

end Setting

theorem spells_iff {piece : List Char} {put : Setting} :
    Spells piece put ↔ setting piece = put := by
  constructor
  next =>
    rintro ⟨plain, rfl | ⟨rfl, empty⟩⟩
    next => simp [setting_assigned plain]
    next => simp [setting_bare plain, ← empty]
  next =>
    rintro rfl
    by_cases assigned : '=' ∈ piece
    next =>
      obtain ⟨key, value, rfl, plain⟩ := List.eq_append_cons_of_mem assigned
      simp [Spells, setting_assigned plain, plain]
    next => simp [Spells, setting_bare assigned, assigned]

theorem settings_eq_splitOn (options : List Char) :
    settings options = ((options.splitOn ',').filter (· ≠ [])).map setting := by
  rw [settings, pieces_eq_splitOn]

theorem spells_settings (options : List Char) :
    List.Forall₂ Spells ((options.splitOn ',').filter (· ≠ [])) (settings options) := by
  rw [settings_eq_splitOn, List.forall₂_map_right_iff, List.forall₂_same]
  intro piece _
  exact spells_iff.mpr rfl

theorem settings_append (front rest : List Char) :
    settings (front ++ ',' :: rest) = settings front ++ settings rest := by
  simp only [settings_eq_splitOn, List.splitOn_append_cons_self, List.filter_append,
    List.map_append]

theorem settings_piece {piece : List Char} (plain : ',' ∉ piece) (some' : piece ≠ []) :
    settings piece = [setting piece] := by
  simp [settings_eq_splitOn, List.splitOn_eq_singleton plain, some']

theorem settings_single {key value : String} (plain : '=' ∉ key.toList)
    (whole : ',' ∉ key.toList ++ value.toList) :
    settings (key ++ "=" ++ value).toList = [⟨key, value⟩] := by
  have piece : (key ++ "=" ++ value).toList = key.toList ++ '=' :: value.toList := by simp
  rw [piece, settings_piece (by simpa using whole) (by simp), setting_assigned plain]
  simp

theorem settings_and (front rest : String) :
    settings (front ++ "," ++ rest).toList = settings front.toList ++ settings rest.toList := by
  rw [← settings_append]
  simp

theorem comma_not_mem_value {options : List Char} {put : Setting}
    (member : put ∈ settings options) :
    ',' ∉ put.value.toList := by
  rw [settings_eq_splitOn] at member
  obtain ⟨piece, listed, rfl⟩ := List.mem_map.mp member
  have plain := not_mem_of_mem_splitOn (List.mem_filter.mp listed).1
  rw [setting, String.toList_ofList]
  intro here
  exact plain ((List.dropWhile_suffix _).mem (List.mem_of_mem_drop here))

end Options

end TpmRelay
