import TpmRelay.Proofs.Numeral
import TpmRelay.Proofs.Pieces

set_option autoImplicit false

namespace TpmRelay

namespace Hexdump

def hexText (width n : Nat) : List Char :=
  ((Nat.digits 16 n).reverse.map Nat.digitChar).leftpad width '0'

def lineText (data : Bytes) (i : Nat) : List Char :=
  hexText 8 (16 * i) ++ ':' :: ((data.drop (16 * i)).take 16).flatMap fun byte =>
    [' ', Nat.digitChar (byte.toNat / 16), Nat.digitChar (byte.toNat % 16)]

def readBytes : List Char → Option Bytes
  | [] => some []
  | ' ' :: high :: low :: text => do
    let byte ← Numeral.value 16 [high, low]
    let bytes ← readBytes text
    return .ofNat byte :: bytes
  | _ => none

def readLine (line : List Char) : Option Bytes :=
  readBytes (line.dropWhile (· ≠ ':')).tail

def decode (text : String) : Option Bytes := do
  let pieces ← (text.toList.splitOn '\n').mapM readLine
  return pieces.flatten

theorem padded_byte (byte : UInt8) :
    Numeral.padded 2 16 byte.toNat =
      [Nat.digitChar (byte.toNat / 16), Nat.digitChar (byte.toNat % 16)] :=
  Numeral.padded_two (by decide) byte.toNat_lt

theorem value_padded_byte (byte : UInt8) :
    Numeral.value 16 [Nat.digitChar (byte.toNat / 16), Nat.digitChar (byte.toNat % 16)] =
      some byte.toNat := by
  have small := byte.toNat_lt
  have high : Numeral.digitValue 16 (Nat.digitChar (byte.toNat / 16)) = some (byte.toNat / 16) :=
    Numeral.digitValue_digitChar (by decide) (by decide) (by omega)
  have low : Numeral.digitValue 16 (Nat.digitChar (byte.toNat % 16)) = some (byte.toNat % 16) :=
    Numeral.digitValue_digitChar (by decide) (by decide) (by omega)
  simp [Numeral.value, high, low, Nat.div_add_mod']

theorem readBytes_line (bytes : Bytes) :
    readBytes (bytes.flatMap fun byte => ' ' :: Numeral.padded 2 16 byte.toNat) = some bytes := by
  induction bytes with
  | nil => rfl
  | cons byte bytes ih =>
    rw [List.flatMap_cons, padded_byte]
    simp [readBytes, value_padded_byte, ih]

theorem readLine_line (offset : Nat) (bytes : Bytes) :
    readLine (line offset bytes) = some bytes := by
  have before : ∀ c ∈ Numeral.padded 8 16 offset, decide (c ≠ ':') := by
    intro c member
    apply decide_eq_true
    rintro rfl
    exact Numeral.not_mem_padded (by decide) (by decide) (by decide) member
  rw [readLine, line, List.dropWhile_append_of_pos before]
  simpa using readBytes_line bytes

theorem newline_not_mem_line (offset : Nat) (bytes : Bytes) : '\n' ∉ line offset bytes := by
  have digit {width n : Nat} : '\n' ∉ Numeral.padded width 16 n :=
    Numeral.not_mem_padded (by decide) (by decide) (by decide)
  simp [line, digit]

theorem line_eq_lineText (data : Bytes) (i : Nat) :
    line (i * lineWidth) ((data.drop (i * lineWidth)).take lineWidth) = lineText data i := by
  rw [line, lineText, hexText, Numeral.padded_eq_leftpad (by decide) (by decide), lineWidth,
    Nat.mul_comm]
  simp only [padded_byte]

theorem lines_eq (data : Bytes) :
    lines data = (List.range ((data.length + 15) / 16)).map (lineText data) := by
  rw [lines, chunksOf_eq_map (by decide), Nat.ceilDiv_eq_add_pred_div]
  apply List.ext_getElem
  next => simp [lineWidth]
  next =>
    intro i _ _
    simp only [List.getElem_mapIdx, List.getElem_map, List.getElem_range, line_eq_lineText]

theorem mapM_readLine (offset : Nat → Nat) (pieces : List Bytes) :
    (pieces.mapIdx fun i bytes => line (offset i) bytes).mapM readLine = some pieces := by
  induction pieces generalizing offset with
  | nil => rfl
  | cons bytes pieces ih =>
    simp [List.mapIdx_cons, readLine_line, ih (offset <| · + 1)]

theorem toList_hexdump (data : Bytes) :
    (hexdump data).toList = ['\n'].intercalate (lines data) := by
  simp [hexdump, Function.comp_def]

theorem newline_not_mem_lines {data : Bytes} : ∀ line ∈ lines data, '\n' ∉ line := by
  intro text member
  obtain ⟨i, _, rfl⟩ := List.mem_mapIdx.mp member
  exact newline_not_mem_line _ _

theorem decode_hexdump (data : Bytes) : decode (hexdump data) = some data := by
  cases data with
  | nil =>
    have empty : (hexdump []).toList = [] := by simp [toList_hexdump, lines]
    rw [decode, empty]
    rfl
  | cons byte bytes =>
    have some : lines (byte :: bytes) ≠ [] := by
      simp [lines, chunksOf_eq_cons (show 0 < lineWidth by decide)]
    have pieces := mapM_readLine (· * lineWidth) (chunksOf lineWidth (byte :: bytes))
    rw [decode, toList_hexdump, List.splitOn_intercalate '\n' newline_not_mem_lines some, lines,
      pieces]
    simp [flatten_chunksOf (show 0 < lineWidth by decide)]

theorem hexdump_loses_nothing :
    (∀ data : Bytes,
      (hexdump data).toList =
        ['\n'].intercalate ((List.range ((data.length + 15) / 16)).map (lineText data)) ∧
      (∀ i, '\n' ∉ lineText data i) ∧ decode (hexdump data) = some data) ∧
    Function.Injective hexdump := by
  refine ⟨fun data => ⟨?_, ?_, decode_hexdump data⟩, ?_⟩
  next => rw [toList_hexdump, lines_eq]
  next =>
    intro i
    rw [← line_eq_lineText]
    exact newline_not_mem_line _ _
  next =>
    intro first second same
    have decoded := decode_hexdump first
    rw [same, decode_hexdump] at decoded
    exact (Option.some.inj decoded).symm

example : hexdump [0x80, 0x01, 0xFF] = "00000000: 80 01 ff" := by cbv

end Hexdump

end TpmRelay
