import TpmRelay.Wire.Value

set_option autoImplicit false

namespace TpmRelay.Capture

structure FileHeader where
  majorVersion : UInt16 := 2
  minorVersion : UInt16 := 4
  gmtOffset : Int32 := 0
  timestampAccuracy : UInt32 := 0
  snapshotLength : UInt32 := 65536
  -- 101 stands for IP packets without a link layer.
  linkType : UInt32 := 101
  deriving DecidableEq, Repr

def FileHeader.magic : UInt32 := 0xA1B2C3D4

def FileHeader.toValue (header : FileHeader) : Wire.Value :=
  .pair
    (.sequence (.u32 magic) [.u16 header.majorVersion, .u16 header.minorVersion])
    (.sequence (.i32 header.gmtOffset)
      [.u32 header.timestampAccuracy, .u32 header.snapshotLength, .u32 header.linkType])

structure Nanos where
  count : UInt32
  lt_second : count.toNat < 1000000000
  deriving DecidableEq, Repr

def Nanos.ofNat (n : Nat) : Nanos where
  count := .ofNat (n % 1000000000)
  lt_second := by
    rw [UInt32.toNat_ofNat']
    omega

inductive Timestamp where
  -- Milliseconds since the start of 1970.
  | millis (n : UInt64)
  -- Seconds since the start of 1970 and what is left of the time.
  | exact (seconds : UInt64) (nanos : Nanos)
  deriving DecidableEq, Repr

namespace Timestamp

-- Loses last digits until less than a second is left.
def boundMicros (micros : Nat) : Nat :=
  if micros < 1000000 then micros else boundMicros (micros / 10)
termination_by micros
decreasing_by omega

def seconds : Timestamp → UInt32
  | millis n => .ofNat (n.toNat / 1000)
  | exact seconds _ => .ofNat seconds.toNat

def micros : Timestamp → UInt32
  | millis n => .ofNat (boundMicros (n.toNat % 1000 * 1000))
  | exact _ nanos => .ofNat (boundMicros (nanos.count.toNat / 1000))

end Timestamp

structure RecordHeader where
  seconds : UInt32
  micros : UInt32
  capturedLength : UInt32
  fullLength : UInt32
  deriving DecidableEq, Repr

def RecordHeader.new (time : Timestamp) (length : Nat) : RecordHeader where
  seconds := time.seconds
  micros := time.micros
  capturedLength := .ofNat length
  fullLength := .ofNat length

def RecordHeader.toValue (header : RecordHeader) : Wire.Value :=
  .sequence (.u32 header.seconds)
    [.u32 header.micros, .u32 header.capturedLength, .u32 header.fullLength]

end TpmRelay.Capture
