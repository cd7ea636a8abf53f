import TpmRelay.Bytes
import TpmRelay.Numeral

set_option autoImplicit false

namespace TpmRelay

structure Shortage where
  requested : Nat
  available : Nat
  deriving DecidableEq, Repr

def Shortage.message (shortage : Shortage) : String :=
  s!"requested {shortage.requested} bytes but only {shortage.available} are buffered"

structure ByteQueue where
  bytes : Bytes := []
  deriving DecidableEq, Repr

namespace ByteQueue

def length (queue : ByteQueue) : Nat :=
  queue.bytes.length

def isEmpty (queue : ByteQueue) : Bool :=
  queue.bytes.isEmpty

def push (queue : ByteQueue) (chunk : Bytes) : ByteQueue :=
  ⟨queue.bytes ++ chunk⟩

def pop (queue : ByteQueue) (n : Nat) : Except Shortage (Bytes × ByteQueue) :=
  match splitExactly n queue.bytes with
  | some (front, rest) => .ok (front, ⟨rest⟩)
  | none => .error { requested := n, available := queue.length }

def peek (queue : ByteQueue) (n : Nat) : Except Shortage Bytes :=
  (queue.pop n).map (·.1)

end ByteQueue

end TpmRelay
