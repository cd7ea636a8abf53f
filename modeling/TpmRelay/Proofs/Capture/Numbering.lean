import TpmRelay.Proofs.Capture.Layout
import TpmRelay.Proofs.Pieces

set_option autoImplicit false

namespace TpmRelay

namespace Directions

variable {α : Type}

@[simp] theorem pick_put (values : Directions α) (direction other : Direction) (value : α) :
    (values.put direction value).pick other =
      if other = direction then value else values.pick other := by
  obtain ⟨side, channel⟩ := direction
  obtain ⟨side', channel'⟩ := other
  cases side <;> cases side' <;> cases channel <;> cases channel' <;> rfl

@[simp] theorem pick_ofFn (f : Direction → α) (direction : Direction) :
    (ofFn f).pick direction = f direction := by
  obtain ⟨side, channel⟩ := direction
  cases side <;> cases channel <;> rfl

end Directions

namespace Capture

namespace Timestamp

def inNanos : Timestamp → Nat
  | millis n => n.toNat * 1000000
  | exact seconds nanos => seconds.toNat * 1000000000 + nanos.count.toNat

theorem boundMicros_of_lt {micros : Nat} (bound : micros < 1000000) :
    boundMicros micros = micros := by
  rw [boundMicros, if_pos bound]

theorem kept_parts {whole micros : Nat} (bound : micros < 1000000) :
    whole % 2 ^ 32 * 1000000 + micros % 2 ^ 32 =
      (whole * 1000000 + micros) % (2 ^ 32 * 1000000) := by
  omega

theorem parts (time : Timestamp) :
    time.micros.toNat < 1000000 ∧
      time.seconds.toNat * 1000000 + time.micros.toNat =
        time.inNanos / 1000 % (2 ^ 32 * 1000000) := by
  cases time with
  | millis n =>
    have bound : n.toNat % 1000 * 1000 < 1000000 := by omega
    have rounded : n.toNat * 1000000 / 1000 =
        n.toNat / 1000 * 1000000 + n.toNat % 1000 * 1000 := by omega
    simp only [micros, seconds, inNanos, boundMicros_of_lt bound, UInt32.toNat_ofNat', rounded]
    exact ⟨(Nat.mod_le _ _).trans_lt bound, kept_parts bound⟩
  | exact seconds nanos =>
    have second := nanos.lt_second
    have bound : nanos.count.toNat / 1000 < 1000000 := by omega
    have rounded : (seconds.toNat * 1000000000 + nanos.count.toNat) / 1000 =
        seconds.toNat * 1000000 + nanos.count.toNat / 1000 := by omega
    simp only [micros, Timestamp.seconds, inNanos, boundMicros_of_lt bound, UInt32.toNat_ofNat',
      rounded]
    exact ⟨(Nat.mod_le _ _).trans_lt bound, kept_parts bound⟩

end Timestamp

def Chunk.pieces (chunk : Chunk) : List Chunk :=
  (chunksOf UdpFlow.maxPayload chunk.payload).map fun payload => { chunk with payload }

structure Entry where
  record : Record
  segment : Segment
  deriving DecidableEq, Repr

abbrev Flows := Directions NumberedFlow

namespace Flows

def start : Flows :=
  .ofFn fun direction => .start direction.flow

def entry (flows : Flows) (piece : Chunk) : Entry :=
  let numbered := flows.pick piece.direction
  let datagram := numbered.flow.datagram numbered.next piece.payload
  { record := { header := .new piece.time datagram.length, datagram }
    segment := numbered.flow.segment numbered.next piece.payload }

def advance (flows : Flows) (piece : Chunk) : Flows :=
  let numbered := flows.pick piece.direction
  flows.put piece.direction { numbered with next := numbered.next + 1 }

def entries : Flows → List Chunk → List Entry
  | _, [] => []
  | flows, piece :: pieces => flows.entry piece :: (flows.advance piece).entries pieces

def advanceAll (flows : Flows) (pieces : List Chunk) : Flows :=
  pieces.foldl advance flows

def Own (flows : Flows) : Prop :=
  ∀ direction, (flows.pick direction).flow = direction.flow

variable {flows : Flows} {piece : Chunk} {pieces : List Chunk}

@[simp] theorem pick_advance (direction : Direction) :
    (flows.advance piece).pick direction =
      if direction = piece.direction then
        { flows.pick direction with next := (flows.pick direction).next + 1 }
      else flows.pick direction := by
  rw [advance, Directions.pick_put]
  split
  next same => rw [same]
  next => rfl

theorem own_start : start.Own := by
  intro direction
  simp [start, NumberedFlow.start]

theorem Own.advance (own : flows.Own) : (flows.advance piece).Own := by
  intro direction
  rw [pick_advance]
  split
  next => exact own direction
  next => exact own direction

theorem Own.advanceAll (own : flows.Own) : (flows.advanceAll pieces).Own := by
  induction pieces generalizing flows with
  | nil => exact own
  | cons piece pieces ih => exact ih own.advance

@[simp] theorem length_entries : (flows.entries pieces).length = pieces.length := by
  induction pieces generalizing flows with
  | nil => rfl
  | cons piece pieces ih => simp [entries, ih]

theorem entries_append (more : List Chunk) :
    flows.entries (pieces ++ more) =
      flows.entries pieces ++ (flows.advanceAll pieces).entries more := by
  induction pieces generalizing flows with
  | nil => rfl
  | cons piece pieces ih => simp [entries, advanceAll, ih]

theorem mem_entries (own : flows.Own) {entry : Entry} (member : entry ∈ flows.entries pieces) :
    ∃ before piece, piece ∈ pieces ∧ Own before ∧ entry = before.entry piece := by
  induction pieces generalizing flows with
  | nil => simp [entries] at member
  | cons piece pieces ih =>
    rw [entries, List.mem_cons] at member
    rcases member with rfl | later
    next => exact ⟨flows, piece, List.mem_cons_self, own, rfl⟩
    next =>
      obtain ⟨before, other, member, own, same⟩ := ih own.advance later
      exact ⟨before, other, List.mem_cons_of_mem _ member, own, same⟩

theorem payloads_entries :
    (flows.entries pieces).flatMap (·.segment.payload) = pieces.flatMap (·.payload) := by
  induction pieces generalizing flows with
  | nil => rfl
  | cons piece pieces ih => simp [entries, ih, entry, UdpFlow.segment]

theorem direction?_entry (own : flows.Own) :
    (flows.entry piece).segment.direction? = some piece.direction := by
  obtain ⟨⟨side, channel⟩, time, payload⟩ := piece
  rw [entry, own]
  cases side <;> cases channel <;> rfl

theorem identification_entries (own : flows.Own) {direction : Direction} {k : Nat} {entry : Entry}
    (found : ((flows.entries pieces).filter (·.segment.direction? = some direction))[k]? =
      some entry) :
    entry.segment.identification.toNat = ((flows.pick direction).next.toNat + k) % 65536 := by
  -- A piece of the direction takes the number that is next; any other leaves the flow as it is.
  induction pieces generalizing flows k with
  | nil => simp [entries] at found
  | cons piece pieces ih =>
    rw [entries, List.filter_cons, direction?_entry own] at found
    by_cases same : piece.direction = direction
    next =>
      subst same
      simp only [decide_true, if_true] at found
      cases k with
      | zero =>
        simp only [List.getElem?_cons_zero, Option.some.injEq] at found
        subst found
        have small := (flows.pick piece.direction).next.toNat_lt
        simp only [Flows.entry, UdpFlow.segment]
        omega
      | succ k =>
        have later := ih own.advance (by simpa using found)
        simp only [pick_advance, if_true, UInt16.toNat_add, UInt16.toNat_ofNat] at later
        omega
    next =>
      have other : ¬ direction = piece.direction := fun equal => same equal.symm
      simp only [Option.some.injEq, same, decide_false, Bool.false_eq_true, if_false] at found
      have later := ih own.advance found
      rwa [pick_advance, if_neg other] at later

end Flows

end Capture

end TpmRelay
