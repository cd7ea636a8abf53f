import TpmRelay.Address.Endpoint
import TpmRelay.Address.Ip
import TpmRelay.Address.Options
import TpmRelay.ByteQueue
import TpmRelay.Bytes
import TpmRelay.Capture.Checksum
import TpmRelay.Capture.Datagram
import TpmRelay.Capture.Direction
import TpmRelay.Capture.Header
import TpmRelay.Capture.Reader
import TpmRelay.Capture.Recorder
import TpmRelay.CommandLine.Arguments
import TpmRelay.CommandLine.Parameter
import TpmRelay.CommandLine.Usage
import TpmRelay.CommandLine.Words
import TpmRelay.Fault
import TpmRelay.FileTree.Basic
import TpmRelay.FileTree.Path
import TpmRelay.Hexdump
import TpmRelay.Link.Basic
import TpmRelay.Link.Helper
import TpmRelay.Link.Machine
import TpmRelay.Link.Step
import TpmRelay.Main
import TpmRelay.Network.Basic
import TpmRelay.Network.Parcel
import TpmRelay.Network.Port
import TpmRelay.Numeral
import TpmRelay.Packet.Basic
import TpmRelay.Packet.Reader
import TpmRelay.Packet.Tag
import TpmRelay.Proofs.Address.Dialects
import TpmRelay.Proofs.Address.Grammar
import TpmRelay.Proofs.Address.IpText
import TpmRelay.Proofs.Address.Reading
import TpmRelay.Proofs.Address.RoundTrip
import TpmRelay.Proofs.Address.Settings
import TpmRelay.Proofs.Capture.Layout
import TpmRelay.Proofs.Capture.Limit
import TpmRelay.Proofs.Capture.Numbering
import TpmRelay.Proofs.Capture.OnesComplement
import TpmRelay.Proofs.Capture.ReadBack
import TpmRelay.Proofs.Capture.Residue
import TpmRelay.Proofs.Capture.Truncation
import TpmRelay.Proofs.Capture.Validity
import TpmRelay.Proofs.Folding
import TpmRelay.Proofs.Hexdump
import TpmRelay.Proofs.Link.Aside
import TpmRelay.Proofs.Link.Attempt
import TpmRelay.Proofs.Link.Change
import TpmRelay.Proofs.Link.CloseOrder
import TpmRelay.Proofs.Link.Closing
import TpmRelay.Proofs.Link.Course
import TpmRelay.Proofs.Link.Events
import TpmRelay.Proofs.Link.Lane
import TpmRelay.Proofs.Link.Ledger
import TpmRelay.Proofs.Link.Outcome
import TpmRelay.Proofs.Link.Queueing
import TpmRelay.Proofs.Link.Return
import TpmRelay.Proofs.Link.Story
import TpmRelay.Proofs.Link.Writing
import TpmRelay.Proofs.Network.SocketFile
import TpmRelay.Proofs.Numeral
import TpmRelay.Proofs.Packet.Layout
import TpmRelay.Proofs.Packet.Reading
import TpmRelay.Proofs.Packet.RoundTrip
import TpmRelay.Proofs.Pieces
import TpmRelay.Proofs.Reassembly.Framing
import TpmRelay.Proofs.Reassembly.Operations
import TpmRelay.Proofs.Session.Blame
import TpmRelay.Proofs.Session.Capturing
import TpmRelay.Proofs.Session.Change
import TpmRelay.Proofs.Session.Draining
import TpmRelay.Proofs.Session.Handling
import TpmRelay.Proofs.Session.Journal
import TpmRelay.Proofs.Session.Parting
import TpmRelay.Proofs.Session.Queues
import TpmRelay.Proofs.Session.Shutdown
import TpmRelay.Proofs.Session.Traffic
import TpmRelay.Proofs.Session.Transparency
import TpmRelay.Proofs.Session.Turnout
import TpmRelay.Proofs.Session.Unseen
import TpmRelay.Proofs.Wire.ScalarCodec
import TpmRelay.Proofs.Wire.ShortSink
import TpmRelay.Proofs.Wire.TupleCodec
import TpmRelay.Proofs.Wire.Writing
import TpmRelay.Reassembly
import TpmRelay.Rehearsal.Bench
import TpmRelay.Rehearsal.CueText
import TpmRelay.Rehearsal.Program
import TpmRelay.Rehearsal.Programs
import TpmRelay.Rehearsal.Scene
import TpmRelay.Rehearsal.Script
import TpmRelay.Rehearsal.Station
import TpmRelay.Rehearsal.Surroundings
import TpmRelay.Session.Basic
import TpmRelay.Session.Note
import TpmRelay.Session.Outcome
import TpmRelay.Session.Step
import TpmRelay.Sides
import TpmRelay.Wire.Scalar
import TpmRelay.Wire.Sink
import TpmRelay.Wire.Value
