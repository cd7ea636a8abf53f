import TpmRelay.Proofs.Wire.ScalarCodec
import TpmRelay.Proofs.Wire.ShortSink

set_option autoImplicit false

namespace TpmRelay.Wire

def Value.tuple (first : Scalar) (others : List Scalar) : Value :=
  sequence (.scalar first) (others.map .scalar)

theorem Value.encode_tuple (first : Scalar) (others : List Scalar) :
    (tuple first others).encode = encodeScalars (first :: others) := by
  induction others generalizing first with
  | nil => simp [tuple, sequence, encode, encodeScalars]
  | cons second others ih =>
    have later := ih second
    rw [tuple] at later
    rw [tuple, List.map_cons, sequence, encode, encode, later]
    rfl

theorem encodeScalars_eq_bytes (scalars : List Scalar) :
    encodeScalars scalars = scalars.flatMap fun scalar => (Field.scalar scalar).bytes := by
  rw [encodeScalars, funext Scalar.encode_eq_bytes]

theorem readTuple_encode_append (scalars : List Scalar) (rest : Bytes) :
    readTuple (scalars.map Scalar.type) (encodeScalars scalars ++ rest) = (.ok scalars, rest) := by
  rw [readTuple, readScalars_encode_append]

section Bounds

variable {types : List ScalarType} {input : Bytes}

theorem readTuple_of_le (enough : totalSize types ≤ input.length) :
    ∃ scalars, scalars.map Scalar.type = types ∧
      encodeScalars scalars = input.take (totalSize types) ∧
      readTuple types input = (.ok scalars, input.drop (totalSize types)) := by
  cases found : readScalars types input with
  | mk result rest =>
    cases result with
    | none =>
      have short := (readScalars_eq_none found).1
      omega
    | some scalars =>
      obtain ⟨rfl, rfl⟩ := encode_of_readScalars found
      have size := length_encodeScalars scalars
      exact ⟨scalars, rfl, (List.take_left' size).symm, by
        rw [readTuple, found, List.drop_left' size]⟩

theorem readTuple_of_lt (short : input.length < totalSize types) :
    readTuple types input = (.error cutShort, []) := by
  cases found : readScalars types input with
  | mk result rest =>
    cases result with
    | none =>
      obtain ⟨_, rfl⟩ := readScalars_eq_none found
      rw [readTuple, found]
    | some scalars =>
      obtain ⟨rfl, rfl⟩ := encode_of_readScalars found
      rw [List.length_append, length_encodeScalars] at short
      omega

end Bounds

theorem tuples_read_back :
    (∀ (first : Scalar) (others : List Scalar) (rest : Bytes),
      let tuple := Value.tuple first others
      tuple.write {} = (.ok (), { accepted := tuple.encode }) ∧
      tuple.encode = (first :: others).flatMap (fun scalar => (Field.scalar scalar).bytes) ∧
      readTuple ((first :: others).map Scalar.type) (tuple.encode ++ rest) =
        (.ok (first :: others), rest)) ∧
    ∀ (type : ScalarType) (types : List ScalarType) (input : Bytes),
      let size := totalSize (type :: types)
      (size ≤ input.length → ∃ first others,
        readTuple (type :: types) input = (.ok (first :: others), input.drop size) ∧
        (first :: others).map Scalar.type = type :: types ∧
        (Value.tuple first others).encode = input.take size) ∧
      (input.length < size →
        readTuple (type :: types) input = (.error cutShort, []) ∧
        cutShort.kind = .unexpectedEnd) := by
  refine ⟨?_, fun type types input => ⟨?_, fun short => ⟨readTuple_of_lt short, rfl⟩⟩⟩
  next =>
    intro first others rest tuple
    have joined : tuple.encode = encodeScalars (first :: others) := Value.encode_tuple first others
    refine ⟨?_, ?_, ?_⟩
    next =>
      rw [Value.write_eq]
      rfl
    next => rw [joined, encodeScalars_eq_bytes]
    next =>
      rw [joined]
      exact readTuple_encode_append (first :: others) rest
  next =>
    intro enough
    obtain ⟨scalars, typed, encoded, found⟩ := readTuple_of_le enough
    cases scalars with
    | nil => cases typed
    | cons first others => exact ⟨first, others, found, typed, by rw [Value.encode_tuple, encoded]⟩

example : readTuple [.i32, .u8] [0xFF, 0xFF, 0xFF, 0xFE, 7, 9] =
    (.ok [.i32 (-2), .u8 7], [9]) := rfl

end TpmRelay.Wire
