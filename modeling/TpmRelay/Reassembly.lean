import TpmRelay.ByteQueue
import TpmRelay.Packet.Basic

set_option autoImplicit false

namespace TpmRelay

inductive Extraction where
  | incomplete
  | packet (packet : Packet)
  | malformed (size : UInt32)
  deriving DecidableEq, Repr

def malformedMessage (size : UInt32) : String :=
  s!"declared TPM2 packet size {size.toNat} is smaller than the 10-byte header"

structure Reassembly where
  queue : ByteQueue := {}
  deriving DecidableEq, Repr

namespace Reassembly

def buffered (reassembly : Reassembly) : Nat :=
  reassembly.queue.length

def ingest (reassembly : Reassembly) (chunk : Bytes) : Reassembly :=
  ⟨reassembly.queue.push chunk⟩

def extract (reassembly : Reassembly) : Extraction × Reassembly :=
  match reassembly.queue.peek headerSize with
  | .error _ => (.incomplete, reassembly)
  | .ok front =>
    match Header.parse? front with
    | none => (.incomplete, reassembly)
    | some header =>
      if header.size.toNat < headerSize then (.malformed header.size, reassembly)
      else match reassembly.queue.pop header.size.toNat with
        | .error _ => (.incomplete, reassembly)
        | .ok (raw, rest) =>
          let payload := raw.drop headerSize
          (.packet { tag := header.tag, size := header.size, code := header.code, payload }, ⟨rest⟩)

-- Extracts until no packet comes; the last outcome is `incomplete` or `malformed`.
def extractAll (reassembly : Reassembly) : List Packet × Extraction × Reassembly :=
  go (reassembly.buffered / headerSize + 1) reassembly
where
  go : Nat → Reassembly → List Packet × Extraction × Reassembly
    | 0, reassembly => ([], .incomplete, reassembly)
    | more + 1, reassembly =>
      match reassembly.extract with
      | (.packet packet, rest) =>
        let (packets, last) := go more rest
        (packet :: packets, last)
      | (outcome, rest) => ([], outcome, rest)

end Reassembly

end TpmRelay
