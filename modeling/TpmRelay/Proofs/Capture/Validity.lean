import TpmRelay.Proofs.Capture.Layout
import TpmRelay.Proofs.Capture.OnesComplement

set_option autoImplicit false

@[simp] theorem TpmRelay.Ipv4.length_octets (ip : Ipv4) : ip.octets.length = 4 := rfl

namespace TpmRelay.UdpFlow

open Capture Checksum

/-- The datagram is an IPv4 packet of the flow with one UDP segment around the payload. -/
structure Carries (flow : UdpFlow) (identification : UInt16) (payload datagram : Bytes) : Prop where
  length : datagram.length = 28 + payload.length
  version : datagram[0]? = some 0x45
  protocol : datagram[9]? = some 17
  totalLength : (Segment.wordAt 2 datagram).toNat = 28 + payload.length
  identification : Segment.wordAt 4 datagram = identification
  source : (datagram.drop 12).take 4 = flow.source.octets
  destination : (datagram.drop 16).take 4 = flow.destination.octets
  sourcePort : Segment.wordAt 20 datagram = flow.sourcePort
  destinationPort : Segment.wordAt 22 datagram = flow.destinationPort
  udpLength : (Segment.wordAt 24 datagram).toNat = 8 + payload.length
  udpChecksum : Segment.wordAt 26 datagram ≠ 0
  payload : datagram.drop 28 = payload
  ipVerifies : fold (words (datagram.take 20)).sum = 0xFFFF
  -- The addresses, the protocol and the length of the segment are summed up with the segment.
  udpVerifies : fold ((words ((datagram.drop 12).take 8)).sum + 17 +
    (Segment.wordAt 24 datagram).toNat + (words (datagram.drop 20)).sum) = 0xFFFF

section Places

variable {place : Nat} {first second : Bytes}

theorem wordAt_append (within : place + 2 ≤ first.length) :
    Segment.wordAt place (first ++ second) = Segment.wordAt place first := by
  have skipped : place ≤ first.length := by omega
  have taken : 2 ≤ (first.drop place).length := by
    rw [List.length_drop]
    omega
  rw [Segment.wordAt, List.drop_append_of_le_length skipped, List.take_append_of_le_length taken]
  rfl

theorem wordAt_append_later {size : Nat} (before : first.length = size) :
    Segment.wordAt (size + place) (first ++ second) = Segment.wordAt place second := by
  rw [Segment.wordAt, ← List.drop_drop, List.drop_left' before]
  rfl

end Places

variable (flow : UdpFlow) (identification checksum : UInt16) (length : Nat) (payload : Bytes)

def ipSummands : List Nat :=
  words (flow.ipHeader identification length 0)

def udpSummands : List Nat :=
  words flow.source.octets ++ words flow.destination.octets ++
    17 :: (udpHeaderSize + payload.length) :: words (flow.udpHeader payload.length 0 ++ payload)

theorem ipChecksum_eq :
    flow.ipChecksum identification length =
      complement (flow.ipSummands identification length).sum := by
  rw [ipChecksum, internetChecksum, wordSum_eq, Nat.zero_add]
  rfl

theorem complement_udpSummands :
    complement (wordSum (flow.udpHeader payload.length 0 ++ payload)
      (flow.pseudoHeaderSum (udpHeaderSize + payload.length))) =
      complement (flow.udpSummands payload).sum := by
  congr 1
  simp only [wordSum_eq, pseudoHeaderSum, udpSummands, List.sum_append, List.sum_cons]
  omega

theorem words_ipHeader :
    (words (flow.ipHeader identification length checksum)).sum =
      (flow.ipSummands identification length).sum + checksum.toNat := by
  simp only [ipSummands, ipHeader]
  repeat rw [words_append (by simp)]
  simp only [words_word, List.sum_append, List.sum_singleton]
  rw [UInt16.toNat_zero]
  omega

theorem words_segment :
    (words (flow.udpHeader length checksum ++ payload)).sum =
      (words (flow.udpHeader length 0 ++ payload)).sum + checksum.toNat := by
  simp only [udpHeader]
  repeat rw [words_append (by simp)]
  simp only [words_word, List.sum_append, List.sum_singleton]
  rw [UInt16.toNat_zero]
  omega

theorem ipHeader_verifies :
    fold (words (flow.ipHeader identification length (flow.ipChecksum identification length))).sum =
      0xFFFF := by
  rw [words_ipHeader, ipChecksum_eq]
  exact fold_add_complement _

theorem udpChecksum_ne_zero : flow.udpChecksum payload ≠ 0 := by
  simp only [udpChecksum]
  split
  next => decide
  next other => exact other

theorem segment_verifies :
    fold ((flow.udpSummands payload).sum + (flow.udpChecksum payload).toNat) = 0xFFFF := by
  simp only [udpChecksum, complement_udpSummands]
  split
  next zero => exact fold_add_ones zero
  next => exact fold_add_complement _

theorem sum_ipSummands_lt : (flow.ipSummands identification length).sum < 2 ^ 32 := by
  have bound := sum_words_le (flow.ipHeader identification length 0)
  rw [length_ipHeader] at bound
  exact bound.trans_lt (by decide)

variable {payload}

theorem sum_udpSummands_lt (fits : payload.length ≤ maxPayload) :
    (flow.udpSummands payload).sum < 2 ^ 32 := by
  have source := sum_words_le flow.source.octets
  have destination := sum_words_le flow.destination.octets
  have segment := sum_words_le (flow.udpHeader payload.length 0 ++ payload)
  rw [Ipv4.length_octets] at source destination
  rw [List.length_append, length_udpHeader] at segment
  simp only [udpSummands, List.sum_append, List.sum_cons]
  simp only [maxPayload, overhead, ipHeaderSize, udpHeaderSize] at *
  omega

theorem addresses_ipHeader :
    (flow.ipHeader identification length checksum).drop 12 =
      flow.source.octets ++ flow.destination.octets := rfl

theorem wordAt_checksum : Segment.wordAt 6 (flow.udpHeader length checksum) = checksum := by
  simp [Segment.wordAt, udpHeader, List.drop_append, List.drop_of_length_le,
    List.take_of_length_le, Segment.ofNat_ofBigEndian_bigEndian]

variable (payload)

theorem take_datagram :
    (flow.datagram identification payload).take 20 =
      flow.ipHeader identification payload.length
        (flow.ipChecksum identification payload.length) := by
  rw [datagram, List.append_assoc]
  exact List.take_left' (length_ipHeader ..)

theorem drop_datagram :
    (flow.datagram identification payload).drop 20 =
      flow.udpHeader payload.length (flow.udpChecksum payload) ++ payload := by
  rw [datagram, List.append_assoc]
  exact List.drop_left' (length_ipHeader ..)

theorem addresses_datagram :
    (flow.datagram identification payload).drop 12 =
      flow.source.octets ++ (flow.destination.octets ++
        (flow.udpHeader payload.length (flow.udpChecksum payload) ++ payload)) := by
  have whole := List.take_append_drop 20 (flow.datagram identification payload)
  rw [take_datagram, drop_datagram] at whole
  rw [← whole, List.drop_append_of_le_length (by simp [ipHeaderSize]), addresses_ipHeader,
    List.append_assoc]

theorem wordAt_datagram_ip (place : Nat) (within : place + 2 ≤ 20) :
    Segment.wordAt place (flow.datagram identification payload) =
      Segment.wordAt place (flow.ipHeader identification payload.length
        (flow.ipChecksum identification payload.length)) := by
  rw [datagram, List.append_assoc]
  exact wordAt_append (by simpa [ipHeaderSize] using within)

theorem wordAt_datagram_udp (place : Nat) (within : place + 2 ≤ 8) :
    Segment.wordAt (20 + place) (flow.datagram identification payload) =
      Segment.wordAt place (flow.udpHeader payload.length (flow.udpChecksum payload)) := by
  rw [datagram, List.append_assoc]
  exact (wordAt_append_later (length_ipHeader ..)).trans
    (wordAt_append (by rwa [length_udpHeader]))

variable {payload}

theorem datagram_carries (fits : payload.length ≤ maxPayload) :
    flow.Carries identification payload (flow.datagram identification payload) := by
  have total : 28 + payload.length < 65536 := by
    simp only [maxPayload, overhead, ipHeaderSize, udpHeaderSize] at fits
    omega
  have size : 8 + payload.length < 65536 := by omega
  have ip := flow.wordAt_ipHeader identification
    (flow.ipChecksum identification payload.length) payload.length
  have udp := flow.wordAt_udpHeader (flow.udpChecksum payload) payload.length
  have checksum := wordAt_checksum flow (flow.udpChecksum payload) payload.length
  rw [← wordAt_datagram_ip _ _ _ _ (by decide), ← wordAt_datagram_ip _ _ _ _ (by decide)] at ip
  rw [← flow.wordAt_datagram_udp identification _ _ (by decide),
    ← flow.wordAt_datagram_udp identification _ _ (by decide),
    ← flow.wordAt_datagram_udp identification _ _ (by decide)] at udp
  rw [← flow.wordAt_datagram_udp identification _ _ (by decide)] at checksum
  have udpLength : (Segment.wordAt 24 (flow.datagram identification payload)).toNat =
      8 + payload.length := by
    rw [udp.2.2, UInt16.toNat_ofNat']
    exact Nat.mod_eq_of_lt size
  constructor
  next => rw [length_datagram]; rfl
  next => rfl
  next => rfl
  next =>
    rw [ip.1, UInt16.toNat_ofNat']
    exact Nat.mod_eq_of_lt total
  next => exact ip.2
  next =>
    rw [addresses_datagram]
    exact List.take_left' (Ipv4.length_octets _)
  next =>
    rw [← List.drop_drop (i := 4), addresses_datagram, List.drop_left' (Ipv4.length_octets _)]
    exact List.take_left' (Ipv4.length_octets _)
  next => exact udp.1
  next => exact udp.2.1
  next => exact udpLength
  next =>
    rw [checksum]
    exact flow.udpChecksum_ne_zero payload
  next =>
    rw [← List.drop_drop (i := 8), drop_datagram]
    exact List.drop_left' (length_udpHeader ..)
  next =>
    rw [take_datagram]
    exact flow.ipHeader_verifies identification payload.length
  next =>
    have addresses : ((flow.datagram identification payload).drop 12).take 8 =
        flow.source.octets ++ flow.destination.octets := by
      rw [addresses_datagram, ← List.append_assoc]
      exact List.take_left' rfl
    have verified := flow.segment_verifies payload
    rw [addresses, words_append (by simp), drop_datagram, words_segment, udpLength, ← verified]
    refine congrArg fold ?_
    simp only [udpSummands, List.sum_append, List.sum_cons, udpHeaderSize]
    omega

end TpmRelay.UdpFlow

namespace TpmRelay.NumberedFlow

open Checksum

def afterAll (numbered : NumberedFlow) (payloads : List Bytes) : NumberedFlow :=
  payloads.foldl (fun numbered payload => (numbered.generate payload).2) numbered

variable {numbered : NumberedFlow} {payload : Bytes}

theorem generate_of_fits (fits : payload.length ≤ UdpFlow.maxPayload) :
    numbered.generate payload =
      (some (numbered.flow.datagram numbered.next payload),
        { numbered with next := numbered.next + 1 }) :=
  if_neg (Nat.not_lt_of_le fits)

theorem generate_of_exceeds (exceeds : UdpFlow.maxPayload < payload.length) :
    numbered.generate payload = (none, numbered) :=
  if_pos exceeds

theorem afterAll_eq (payloads : List Bytes) :
    numbered.afterAll payloads =
      { numbered with
        next := numbered.next + .ofNat (payloads.countP (·.length ≤ UdpFlow.maxPayload)) } := by
  induction payloads generalizing numbered with
  | nil => simp [afterAll]
  | cons payload payloads ih =>
    have later : numbered.afterAll (payload :: payloads) =
        (numbered.generate payload).2.afterAll payloads := rfl
    rw [later, ih, List.countP_cons]
    by_cases fits : payload.length ≤ UdpFlow.maxPayload
    next =>
      simp only [generate_of_fits fits, fits, decide_true, if_true, UInt16.add_assoc,
        Nat.add_comm _ 1, UInt16.ofNat_add]
      rfl
    next =>
      rw [generate_of_exceeds (Nat.lt_of_not_le fits)]
      simp [fits]

theorem generated_datagrams_are_valid (flow : UdpFlow) (earlier : List Bytes) (payload : Bytes) :
    let numbered := (start flow).afterAll earlier
    numbered.next.toNat =
      (flow.identification.toNat + earlier.countP (·.length ≤ 65507)) % 65536 ∧
    (payload.length ≤ 65507 → ∃ datagram,
      numbered.generate payload =
        (some datagram, { numbered with next := numbered.next + 1 }) ∧
      flow.Carries numbered.next payload datagram ∧
      -- All additions stay within 32 bits.
      (∀ sum ∈ partialSums (flow.ipSummands numbered.next payload.length), sum < 2 ^ 32) ∧
      ∀ sum ∈ partialSums (flow.udpSummands payload), sum < 2 ^ 32) ∧
    (65507 < payload.length → numbered.generate payload = (none, numbered)) := by
  intro numbered
  have same : numbered.flow = flow := by simp only [numbered, afterAll_eq, start]
  refine ⟨?_, fun fits => ⟨_, generate_of_fits fits, ?_, ?_, ?_⟩, generate_of_exceeds⟩
  next =>
    simp only [numbered, afterAll_eq, start, UInt16.toNat_add, UInt16.toNat_ofNat']
    exact Nat.add_mod_mod ..
  next =>
    rw [same]
    exact flow.datagram_carries numbered.next fits
  next =>
    intro sum member
    exact (le_of_mem_partialSums member).trans_lt (flow.sum_ipSummands_lt _ _)
  next =>
    intro sum member
    exact (le_of_mem_partialSums member).trans_lt (flow.sum_udpSummands_lt fits)

end TpmRelay.NumberedFlow
