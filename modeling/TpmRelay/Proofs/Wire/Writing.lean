import TpmRelay.Wire.Value

set_option autoImplicit false

namespace TpmRelay.Wire

namespace Sink

variable (sink : Sink)

@[simp] theorem write_nil : sink.write [] = (.ok (), sink) := by
  obtain ⟨limit, flushFault, accepted⟩ := sink
  cases limit <;> simp [write]

@[simp] theorem write_unlimited (flushFault : Option Fault) (accepted bytes : Bytes) :
    write ⟨none, flushFault, accepted⟩ bytes = (.ok (), ⟨none, flushFault, accepted ++ bytes⟩) := rfl

theorem write_append (first second : Bytes) :
    sink.write (first ++ second) =
      match sink.write first with
      | (.ok (), sink) => sink.write second
      | failed => failed := by
  obtain ⟨limit, flushFault, accepted⟩ := sink
  cases limit with
  | none => simp
  | some limit =>
    by_cases fits : first.length ≤ limit - accepted.length
    next =>
      have room : limit - (accepted.length + first.length) =
          limit - accepted.length - first.length := by omega
      have whole : first.take (limit - accepted.length) = first := List.take_of_length_le fits
      simp only [write, whole, List.take_append, List.length_append, if_true, room,
        Nat.add_left_cancel_iff, List.append_assoc]
    next =>
      have none : limit - accepted.length - first.length = 0 := by omega
      have cut : ¬ (first.take (limit - accepted.length)).length = first.length := by
        rw [List.length_take]
        omega
      have cut' : ¬ (first.take (limit - accepted.length)).length =
          first.length + second.length := by
        rw [List.length_take]
        omega
      simp only [write, List.take_append, none, List.take_zero, List.append_nil,
        List.length_append, if_neg cut, if_neg cut']

end Sink

theorem Value.write_eq (value : Value) (sink : Sink) : value.write sink = sink.write value.encode := by
  induction value generalizing sink with
  | scalar | raw => rfl
  | pair first second ihFirst ihSecond =>
    rw [write, encode, Sink.write_append, ihFirst]
    rcases sink.write first.encode with ⟨_ | _, next⟩
    next => rfl
    next => exact ihSecond next

end TpmRelay.Wire
