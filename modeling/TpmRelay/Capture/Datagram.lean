import TpmRelay.Address.Ip
import TpmRelay.Capture.Checksum

set_option autoImplicit false

namespace TpmRelay

structure UdpFlow where
  source : Ipv4
  sourcePort : UInt16
  destination : Ipv4
  destinationPort : UInt16
  -- The identification of the first datagram.
  identification : UInt16
  deriving DecidableEq, Repr

namespace UdpFlow

def ipHeaderSize : Nat := 20

def udpHeaderSize : Nat := 8

def overhead : Nat := ipHeaderSize + udpHeaderSize

def maxPayload : Nat := 65535 - overhead

-- Version 4 with five header words; not to be fragmented, time to live 64, protocol UDP.
def ipHeader (flow : UdpFlow) (identification : UInt16) (payloadLength : Nat) (checksum : UInt16) :
    Bytes :=
  [0x45, 0] ++ bigEndian 2 (overhead + payloadLength) ++ bigEndian 2 identification.toNat ++
    [0x40, 0, 64, 17] ++ bigEndian 2 checksum.toNat ++ flow.source.octets ++ flow.destination.octets

def udpHeader (flow : UdpFlow) (payloadLength : Nat) (checksum : UInt16) : Bytes :=
  bigEndian 2 flow.sourcePort.toNat ++ bigEndian 2 flow.destinationPort.toNat ++
    bigEndian 2 (udpHeaderSize + payloadLength) ++ bigEndian 2 checksum.toNat

def ipChecksum (flow : UdpFlow) (identification : UInt16) (payloadLength : Nat) : UInt16 :=
  Checksum.internetChecksum (flow.ipHeader identification payloadLength 0)

-- The sum of the words that are checked but not sent with the segment.
def pseudoHeaderSum (flow : UdpFlow) (segmentLength : Nat) : Nat :=
  let source := Checksum.wordSum flow.source.octets 0
  Checksum.wordSum flow.destination.octets source + 17 + segmentLength

-- Zero would mean that there is no checksum and is written as its other representation.
def udpChecksum (flow : UdpFlow) (payload : Bytes) : UInt16 :=
  let length := payload.length
  let sum := flow.pseudoHeaderSum (udpHeaderSize + length)
  let checksum := Checksum.complement (Checksum.wordSum (flow.udpHeader length 0 ++ payload) sum)
  if checksum = 0 then 0xFFFF else checksum

def datagram (flow : UdpFlow) (identification : UInt16) (payload : Bytes) : Bytes :=
  let length := payload.length
  flow.ipHeader identification length (flow.ipChecksum identification length) ++
    flow.udpHeader length (flow.udpChecksum payload) ++ payload

end UdpFlow

structure NumberedFlow where
  flow : UdpFlow
  next : UInt16
  deriving DecidableEq, Repr

namespace NumberedFlow

def start (flow : UdpFlow) : NumberedFlow :=
  { flow, next := flow.identification }

-- A payload that no datagram can hold is refused before a number is taken.
def generate (numbered : NumberedFlow) (payload : Bytes) : Option Bytes × NumberedFlow :=
  if UdpFlow.maxPayload < payload.length then (none, numbered)
  else
    let identification := numbered.next
    let numbered := { numbered with next := identification + 1 }
    (some (numbered.flow.datagram identification payload), numbered)

end NumberedFlow

end TpmRelay
