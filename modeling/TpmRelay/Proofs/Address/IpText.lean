import Mathlib.Data.List.TakeWhile
import TpmRelay.Address.Ip
import TpmRelay.Proofs.Numeral

set_option autoImplicit false

namespace TpmRelay

namespace IpText

open Numeral

def Ends (radix : Nat) (rest : List Char) : Prop :=
  ∀ c ∈ rest.head?, isDigit radix c = false

variable {radix : Nat} {text rest : List Char}

theorem ends_nil : Ends radix [] := nofun

theorem ends_cons {c : Char} (other : isDigit radix c = false) : Ends radix (c :: rest) := by
  intro first member
  rwa [← Option.some.inj member]

theorem Ends.takeWhile (ends : Ends radix rest) : rest.takeWhile (isDigit radix) = [] := by
  cases rest with
  | nil => rfl
  | cons c rest => simp [ends c rfl]

theorem Ends.dropWhile (ends : Ends radix rest) : rest.dropWhile (isDigit radix) = rest := by
  cases rest with
  | nil => rfl
  | cons c rest => simp [ends c rfl]

theorem Ends.numeral {width : Nat} (ends : Ends radix rest) : numeral radix width rest = none := by
  simp [IpText.numeral, ends.takeWhile]

theorem numeral_digits {n places : Nat} (base : 2 ≤ radix) (hex : radix ≤ 16)
    (fits : n < radix ^ (places + 1)) (ends : Ends radix rest) :
    numeral radix (places + 1) (digits radix n ++ rest) = some (digits radix n, rest) := by
  have all : ∀ c ∈ digits radix n, isDigit radix c := fun _ => isDigit_of_mem_digits base hex
  have short := length_digits_le base fits
  simp only [numeral, List.takeWhile_append_of_pos all, List.dropWhile_append_of_pos all,
    ends.takeWhile, ends.dropWhile, List.append_nil]
  rw [if_neg]
  rintro (empty | long)
  next => exact digits_ne_nil base n empty
  next => omega

theorem octet_digits (n : UInt8) (ends : Ends 10 rest) :
    octet (digits 10 n.toNat ++ rest) = some (n, rest) := by
  have bound := n.toNat_lt
  have read := numeral_digits (by decide) (by decide)
    (show n.toNat < 10 ^ (2 + 1) by omega) ends
  have plain : ¬ (((digits 10 n.toNat).head? = some '0' ∧ 1 < (digits 10 n.toNat).length) ∨
      255 < n.toNat) := by
    rintro (⟨zero, long⟩ | large)
    next =>
      rw [head_digits (by decide) (by decide) zero, digits_of_lt (by decide)] at long
      simp at long
    next => omega
  simp only [octet, read, value_digits (show 2 ≤ 10 by decide) (by decide), Option.bind_eq_bind,
    Option.bind_some, if_neg plain, UInt8.ofNat_toNat]

theorem segment_digits (n : UInt16) (ends : Ends 16 rest) :
    segment (digits 16 n.toNat ++ rest) = some (n, rest) := by
  have bound := n.toNat_lt
  have read := numeral_digits (by decide) (by decide)
    (show n.toNat < 16 ^ (3 + 1) by omega) ends
  simp only [segment, read, value_digits (show 2 ≤ 16 by decide) (by decide),
    Option.bind_eq_bind, Option.bind_some, UInt16.ofNat_toNat]

@[simp] theorem expect_cons (c : Char) : expect c (c :: rest) = some rest := by
  simp [expect]

theorem ipv4_chars (ip : Ipv4) (ends : Ends 10 rest) :
    ipv4 (ip.chars ++ rest) = some (ip, rest) := by
  have dot (n : UInt8) (more : List Char) :
      octet (digits 10 n.toNat ++ '.' :: more) = some (n, '.' :: more) :=
    octet_digits n (ends_cons (by decide))
  have joined : ip.chars ++ rest = digits 10 ip.first.toNat ++ '.' ::
      (digits 10 ip.second.toNat ++ '.' :: (digits 10 ip.third.toNat ++ '.' ::
        (digits 10 ip.fourth.toNat ++ rest))) := by
    simp [Ipv4.chars, Ipv4.octets]
  rw [joined]
  simp [ipv4, dot, octet_digits _ ends]

theorem Ends.ipv4 (ends : Ends 10 text) : ipv4 text = none := by
  simp [IpText.ipv4, octet, ends.numeral]

theorem mem_of_octet {n : UInt8} {c : Char} (read : octet text = some (n, rest))
    (member : c ∈ rest) : c ∈ text := by
  simp only [octet, numeral, Option.bind_eq_bind] at read
  split at read
  next => simp at read
  next =>
    simp only [Option.bind_some] at read
    obtain ⟨value, -, read⟩ := Option.bind_eq_some_iff.mp read
    split at read
    next => simp at read
    next =>
      obtain ⟨-, rfl⟩ := Prod.mk.inj (Option.some.inj read)
      exact (List.dropWhile_suffix _).mem member

theorem ipv4_of_no_dot (none : '.' ∉ text) : ipv4 text = Option.none := by
  cases first : octet text with
  | none => simp [ipv4, first]
  | some read =>
    obtain ⟨n, rest⟩ := read
    have noDot : '.' ∉ rest := fun member => none (mem_of_octet first member)
    have stop : expect '.' rest = Option.none := by
      cases rest with
      | nil => rfl
      | cons c rest =>
        have other : ¬ c = '.' := by
          rintro rfl
          exact noDot List.mem_cons_self
        simp [expect, other]
    simp [ipv4, first, stop]

section Segments

def tailChars (segments : List UInt16) : List Char :=
  segments.flatMap fun segment => ':' :: digits 16 segment.toNat

theorem segmentChars_cons (segment : UInt16) (segments : List UInt16) :
    Ipv6.segmentChars (segment :: segments) = digits 16 segment.toNat ++ tailChars segments := by
  induction segments generalizing segment with
  | nil => simp [Ipv6.segmentChars, tailChars]
  | cons next segments ih =>
    have later := ih next
    simp only [Ipv6.segmentChars, List.map_cons, List.intercalate_cons_cons] at later ⊢
    rw [later]
    simp [tailChars]

inductive Stops : List Char → Prop where
  | ended : Stops []
  | zeros (rest : List Char) : Stops (':' :: ':' :: rest)

theorem ends_colon (rest : List Char) : Ends 16 (':' :: rest) := ends_cons (by decide)

theorem Stops.ends {rest : List Char} (stops : Stops rest) : Ends 16 rest := by
  cases stops with
  | ended => exact ends_nil
  | zeros rest => exact ends_colon _

theorem Ends.segment {text : List Char} (ends : Ends 16 text) : segment text = none := by
  simp [IpText.segment, ends.numeral]

theorem Ends.decimal {text : List Char} (ends : Ends 16 text) : Ends 10 text := by
  intro c first
  exact not_isDigit_of_le (by decide) (ends c first)

theorem segments_of_stops {rest : List Char} (stops : Stops rest) (left : Nat) (isFirst : Bool) :
    segments left isFirst rest = ([], false, rest) := by
  cases left with
  | zero => rfl
  | succ left =>
    cases isFirst with
    | true => simp [segments, stops.ends.segment, stops.ends.decimal.ipv4]
    | false =>
      cases stops with
      | ended => simp [segments, expect]
      | zeros rest =>
        simp [segments, (ends_colon rest).segment, (ends_colon rest).decimal.ipv4]

theorem not_mem_tailChars {c : Char} (other : isDigit 16 c = false) (noColon : c ≠ ':')
    (segments : List UInt16) : c ∉ tailChars segments := by
  simp [tailChars, noColon, not_mem_digits (show 2 ≤ 16 by decide) (by decide) other]

theorem not_mem_segmentChars {c : Char} (other : isDigit 16 c = false) (noColon : c ≠ ':')
    (segments : List UInt16) : c ∉ Ipv6.segmentChars segments := by
  cases segments with
  | nil => simp [Ipv6.segmentChars]
  | cons segment segments =>
    simp [segmentChars_cons, not_mem_tailChars other noColon,
      not_mem_digits (show 2 ≤ 16 by decide) (by decide) other]

variable {rest : List Char}

theorem Stops.after_tail (stops : Stops rest) (segments : List UInt16) :
    Ends 16 (tailChars segments ++ rest) := by
  cases segments with
  | nil => exact stops.ends
  | cons segment segments => exact ends_colon _

theorem segments_step (segment : UInt16) (more : List Char) {isFirst : Bool} {left : Nat}
    {text last : List Char} {later : List UInt16}
    (start : (if isFirst then some text else expect ':' text) =
      some (digits 16 segment.toNat ++ more))
    (ends : Ends 16 more) (noDot : '.' ∉ more)
    (next : segments left false more = (later, false, last)) :
    segments (left + 1) isFirst text = (segment :: later, false, last) := by
  have plain : '.' ∉ digits 16 segment.toNat ++ more := by
    simp [noDot, not_mem_digits (show 2 ≤ 16 by decide) (c := '.') (by decide) (by decide)]
  simp [segments, start, ipv4_of_no_dot plain, segment_digits segment ends, next]

theorem segments_tail (stops : Stops rest) (noDot : '.' ∉ rest) {left : Nat}
    {printed : List UInt16} (room : printed.length ≤ left) :
    segments left false (tailChars printed ++ rest) = (printed, false, rest) := by
  induction printed generalizing left with
  | nil => exact segments_of_stops stops left false
  | cons segment printed ih =>
    obtain ⟨left, rfl⟩ : ∃ fewer, left = fewer + 1 := ⟨left - 1, by simp at room; omega⟩
    have plain := not_mem_tailChars (c := '.') (by decide) (by decide) printed
    apply segments_step segment (tailChars printed ++ rest)
    next => simp [tailChars]
    next => exact stops.after_tail printed
    next => simp [plain, noDot]
    next => exact ih (by simpa using room)

theorem segments_chars (stops : Stops rest) (noDot : '.' ∉ rest) {left : Nat}
    {printed : List UInt16} (room : printed.length ≤ left) :
    segments left true (Ipv6.segmentChars printed ++ rest) = (printed, false, rest) := by
  cases printed with
  | nil => exact segments_of_stops stops left true
  | cons segment printed =>
    obtain ⟨left, rfl⟩ : ∃ fewer, left = fewer + 1 := ⟨left - 1, by simp at room; omega⟩
    have plain := not_mem_tailChars (c := '.') (by decide) (by decide) printed
    apply segments_step segment (tailChars printed ++ rest)
    next => simp [segmentChars_cons]
    next => exact stops.after_tail printed
    next => simp [plain, noDot]
    next => exact segments_tail stops noDot (by simpa using room)

theorem ipv6_segmentChars {printed : List UInt16} (length : printed.length = 8) :
    ipv6 (Ipv6.segmentChars printed) = some (⟨printed, length⟩, []) := by
  have read := segments_chars .ended (by simp) (Nat.le_of_eq length)
  rw [List.append_nil] at read
  simp [ipv6, read, length, Ipv6.ofSegments?]

theorem ipv6_of_zeros (front : List UInt16) (zeros : Nat) {text : List Char} {back : List UInt16}
    {dotted : Bool}
    (first : segments 8 true text = (front, false, ':' :: ':' :: rest))
    (second : segments (7 - front.length) true rest = (back, dotted, [])) (some' : 0 < zeros)
    (length : (front ++ List.replicate zeros 0 ++ back).length = 8) :
    ipv6 text = some (⟨front ++ List.replicate zeros 0 ++ back, length⟩, []) := by
  have sizes := length
  simp only [List.length_append, List.length_replicate] at sizes
  have partly : ¬ front.length = 8 := by omega
  have whole : front.length + (zeros + back.length) = 8 := by omega
  have between : 8 - (front.length + back.length) = zeros := by omega
  simp [ipv6, first, second, partly, whole, between, Ipv6.ofSegments?]

theorem ipv6_compressed {front back : List UInt16} {zeros : Nat} (two : 2 ≤ zeros)
    (length : (front ++ List.replicate zeros 0 ++ back).length = 8) :
    ipv6 (Ipv6.segmentChars front ++ [':', ':'] ++ Ipv6.segmentChars back) =
      some (⟨front ++ List.replicate zeros 0 ++ back, length⟩, []) := by
  have sizes := length
  simp only [List.length_append, List.length_replicate] at sizes
  have plain := not_mem_segmentChars (c := '.') (by decide) (by decide) back
  rw [List.append_assoc]
  apply ipv6_of_zeros
  next => exact segments_chars (.zeros _) (by simp [plain]) (by omega)
  next =>
    have read := segments_chars .ended (by simp) (show back.length ≤ 7 - front.length by omega)
    rwa [List.append_nil] at read
  next => omega

theorem ipv6_mapped (ip : Ipv4) {high low : UInt16}
    (first : high = .ofNat (ip.first.toNat * 256 + ip.second.toNat))
    (second : low = .ofNat (ip.third.toNat * 256 + ip.fourth.toNat)) :
    ipv6 ("::ffff:".toList ++ ip.chars) =
      some (⟨[0, 0, 0, 0, 0, 0xffff, high, low], rfl⟩, []) := by
  have mark : digits 16 (0xffff : UInt16).toNat = "ffff".toList := by
    simp [digits, Nat.digitChar]
  have dotted : ipv4 ip.chars = some (ip, []) := by
    simpa using ipv4_chars ip ends_nil
  have tail : segments 6 false (':' :: ip.chars) = ([high, low], true, []) := by
    simp [segments, dotted, first, second]
  have noDots : ipv4 ("ffff".toList ++ ':' :: ip.chars) = none :=
    (ends_cons (by decide) : Ends 10 _).ipv4
  have read : segment ("ffff".toList ++ ':' :: ip.chars) = some (0xffff, ':' :: ip.chars) :=
    mark ▸ segment_digits 0xffff (ends_colon ip.chars)
  have back : segments 7 true ("ffff".toList ++ ':' :: ip.chars) =
      ([0xffff, high, low], true, []) := by
    rw [segments]
    simp only [noDots, read, tail, if_true, ite_self]
  exact ipv6_of_zeros [] 5 (segments_of_stops (.zeros _) 8 true) back
    (by decide) rfl

end Segments

end IpText

namespace Ipv6

def IsRun (segments : List UInt16) (run : Nat × Nat) : Prop :=
  segments = segments.take run.1 ++ List.replicate run.2 0 ++ segments.drop (run.1 + run.2)

theorem isRun_zerosFrom (segments : List UInt16) (start : Nat) :
    IsRun segments (start, zerosFrom segments start) := by
  let later := segments.drop start
  have zeros : later.takeWhile (· = 0) = List.replicate (zerosFrom segments start) 0 := by
    apply List.eq_replicate_of_mem
    intro segment member
    simpa using List.mem_takeWhile_imp member
  have joined : later.takeWhile (· = 0) ++ later.dropWhile (· = 0) = later :=
    List.takeWhile_append_dropWhile
  have others : later.dropWhile (· = 0) = segments.drop (start + zerosFrom segments start) := by
    have dropped : (later.takeWhile (· = 0) ++ later.dropWhile (· = 0)).drop
        (List.replicate (zerosFrom segments start) (0 : UInt16)).length =
          later.dropWhile (· = 0) :=
      List.drop_left' (congrArg List.length zeros)
    rw [joined, List.length_replicate, List.drop_drop] at dropped
    exact dropped.symm
  calc
    segments = segments.take start ++ later := (List.take_append_drop ..).symm
    _ = segments.take start ++ (List.replicate (zerosFrom segments start) 0 ++
        segments.drop (start + zerosFrom segments start)) := by rw [← zeros, ← others, joined]
    _ = _ := (List.append_assoc ..).symm

theorem isRun_longestZeros (segments : List UInt16) : IsRun segments (longestZeros segments) := by
  unfold longestZeros
  apply List.foldlRecOn
  next => simp [IsRun]
  next =>
    intro best run start _
    dsimp only
    split
    next => exact isRun_zerosFrom segments start
    next => exact run

theorem word_bytes (n : UInt16) :
    n = .ofNat ((n >>> 8).toUInt8.toNat * 256 + n.toUInt8.toNat) := by
  apply UInt16.toNat_inj.mp
  have bound := n.toNat_lt
  simp [Nat.shiftRight_eq_div_pow]
  omega

theorem segments_of_mapped {ip : Ipv6} {ipv4 : Ipv4} (mapped : ip.mapped? = some ipv4) :
    ∃ high low : UInt16, ip.segments = [0, 0, 0, 0, 0, 0xffff, high, low] ∧
      ipv4 = ⟨(high >>> 8).toUInt8, high.toUInt8, (low >>> 8).toUInt8, low.toUInt8⟩ := by
  unfold mapped? at mapped
  split at mapped
  next high low same => exact ⟨high, low, same, (Option.some.inj mapped).symm⟩
  next => simp at mapped

theorem read_chars (ip : Ipv6) : IpText.ipv6 ip.chars = some (ip, []) := by
  obtain ⟨segments, length⟩ := ip
  unfold chars
  split
  next ipv4 mapped =>
    obtain ⟨high, low, same, rfl⟩ := segments_of_mapped mapped
    obtain rfl : segments = [0, 0, 0, 0, 0, 0xffff, high, low] := same
    exact IpText.ipv6_mapped _ (word_bytes high) (word_bytes low)
  next =>
    have run : IsRun segments (longestZeros segments) := isRun_longestZeros segments
    cases longest : longestZeros segments with
    | mk start zeros =>
      rw [longest] at run
      unfold IsRun at run
      dsimp only
      split
      next => exact IpText.ipv6_segmentChars length
      next more =>
        rw [IpText.ipv6_compressed (by omega) (run ▸ length)]
        simp only [← run]

theorem ipv4_chars (ip : Ipv6) : IpText.ipv4 ip.chars = none := by
  unfold chars
  split
  next ipv4 _ =>
    have starts : IpText.Ends 10 ("::ffff:".toList ++ ipv4.chars) := IpText.ends_cons (by decide)
    exact starts.ipv4
  next =>
    have plain (printed : List UInt16) : '.' ∉ segmentChars printed :=
      IpText.not_mem_segmentChars (by decide) (by decide) printed
    apply IpText.ipv4_of_no_dot
    dsimp only
    split <;> simp [plain]

end Ipv6

namespace Ip

open Numeral

theorem parse_text (ip : Ip) : parse ip.text = some ip := by
  rw [parse, text, String.toList_ofList]
  cases ip with
  | v4 ip =>
    have read := IpText.ipv4_chars ip IpText.ends_nil
    rw [List.append_nil] at read
    simp [chars, read]
  | v6 ip => simp [chars, ip.ipv4_chars, ip.read_chars]

theorem not_mem_text {c : Char} (other : isDigit 16 c = false) (noColon : c ≠ ':')
    (noDot : c ≠ '.') (ip : Ip) : c ∉ ip.text.toList := by
  have decimal : isDigit 10 c = false := not_isDigit_of_le (by decide) other
  have dotted (ip : Ipv4) : c ∉ ip.chars := by
    simp [Ipv4.chars, Ipv4.octets, noDot,
      not_mem_digits (show 2 ≤ 10 by decide) (by decide) decimal]
  have segments (printed : List UInt16) : c ∉ Ipv6.segmentChars printed :=
    IpText.not_mem_segmentChars other noColon printed
  rw [text, String.toList_ofList]
  cases ip with
  | v4 ip => exact dotted ip
  | v6 ip =>
    have mark : c ≠ 'f' := by
      rintro rfl
      contradiction
    rw [chars, Ipv6.chars]
    split
    next => simp [dotted, noColon, mark]
    next =>
      dsimp only
      split <;> simp [segments, noColon]

end Ip

end TpmRelay
