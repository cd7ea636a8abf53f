import TpmRelay.CommandLine.Arguments
import TpmRelay.Rehearsal.Station
import TpmRelay.Session.Step

set_option autoImplicit false

namespace TpmRelay.Rehearsal

namespace Program

inductive Stage where
  | connecting
  | waiting
  | relaying
  -- The links still to be closed before the program ends with this code.
  | leaving (code : Nat) (sides : List Side)
  | ended (code : Nat)
  deriving DecidableEq, Repr

inductive Cue where
  -- The simulator accepts both connections, and then the client makes its own.
  | establish (control data : String)
  | accept
  | send (who : Side) (channel : Channel) (bytes : Bytes)
  -- Reads so many bytes, or up to the end.
  | read (who : Side) (channel : Channel) (count : Option Nat)
  | close (who : Side)
  | interrupt
  deriving DecidableEq, Repr

inductive Answer where
  | nothing
  | established (accepted : Channels Bool) (connected : Nat)
  | read (bytes : Bytes) (ending : Network.Ending)
  deriving DecidableEq, Repr

end Program

structure Program where
  network : Network
  stations : Sides Station
  stage : Program.Stage := .connecting
  session : Session := {}
  frontend : String := ""
  -- What has been written to the capture file so far, if there is one.
  captured : Option (Location × Bytes) := none
  -- Listeners of the simulator.
  acceptors : Channels Nat
  peers : Sides (Channels (Option Nat)) := ⟨⟨none, none⟩, ⟨none, none⟩⟩
  calls : Nat := 1
  -- The write that control bytes wait for.
  forwarding : Option Nat := none
  -- A packet that is still to be handed on, by the side that it came from.
  held : Sides (Option Packet) := ⟨none, none⟩
  -- The write that hands a packet on.
  sending : Sides (Option Nat) := ⟨none, none⟩
  news : List (Side × Link.Effect) := []

namespace Program

def establishCall : Nat := 0

def withPlace (program : Program) (side : Side) (place : Place) : Program :=
  { program with
    network := place.1
    stations := program.stations.set side { place.2 with told := [] }
    news := program.news ++ place.2.told.map (side, ·) }

def place (program : Program) (side : Side) : Place :=
  (program.network, program.stations.get side)

def tell (program : Program) (side : Side) (move : Link.Move) : Program :=
  program.withPlace side (Station.move (program.place side) move)

def forgetWrites (program : Program) : Program :=
  let forget (program : Program) (side : Side) (channel : Channel) (call : Option Nat) : Program :=
    match call with
    | some call => program.tell side (.forget channel call)
    | none => program
  let program := forget program .simulator .control program.forwarding
  let program := forget program .client .control program.forwarding
  let program := forget program .client .data program.sending.simulator
  let program := forget program .simulator .data program.sending.client
  { program with forwarding := none, held := ⟨none, none⟩, sending := ⟨none, none⟩ }

def act (program : Program) : Session.Effect → Program
  | .takeEvents side => program.tell side .takeEvents
  | .resume side => program.tell side .resume
  | .write side channel bytes =>
    let call := program.calls
    let program := { program with calls := call + 1 }.tell side (.write call channel bytes)
    match channel with
    | .control => { program with forwarding := some call }
    | .data => { program with sending := program.sending.set side.opposite (some call) }
  | .dispatch side packet => { program with held := program.held.set side (some packet) }
  | .close side => program.forgetWrites.tell side .close
  | .flush =>
    let bytes := (program.session.recording.recorder?.map (·.sink.accepted)).getD []
    { program with captured := program.captured.map fun (file, _) => (file, bytes) }
  | .note _ => program

def possible (program : Program) (move : Session.Move) : Option Program :=
  (program.session.step move).map fun (effects, session) =>
    effects.foldl act { program with session }

def move (program : Program) (move : Session.Move) : Program :=
  (program.possible move).getD program

def startSession (program : Program) : Program :=
  let opening (side : Side) : Session.Opening :=
    let link := (program.stations.get side).link
    { events := if link.eventsTaken then .error .eventsTaken else .ok (), resumed := link.resume.1 }
  { program with stage := .relaying }.move (.start ⟨opening .simulator, opening .client⟩)

def leave (program : Program) (code : Nat) : Program :=
  { program with stage := .leaving code [.simulator, .client] }.tell .simulator .close

def hear (program : Program) (side : Side) (effect : Link.Effect) : Program :=
  match effect, program.stage with
  | .queue event, _ => program.move (.arrive side event)
  | .established _ (.ok ()), .connecting =>
    { program with stage := .waiting }.tell .client (.listen establishCall program.frontend)
  | .established _ (.error _), .connecting => { program with stage := .ended 1 }
  | .established _ (.ok ()), .waiting => program.startSession
  | .established _ (.error _), .waiting => program.leave 1
  | .wrote call result, .relaying =>
    if program.forwarding = some call then
      { program with forwarding := none }.move (.forwarded result)
    else if program.sending.get side.opposite = some call then
      let program := { program with sending := program.sending.set side.opposite none }
      program.move (.returned side.opposite result)
    else program
  | .closed, .relaying => program.move .released
  | .closed, .leaving code sides =>
    match sides.tail with
    | [] => { program with stage := .ended code }
    | next :: rest => { program with stage := .leaving code (next :: rest) }.tell next .close
  | _, _ => program

def handOn (program : Program) (side : Side) : Option Program := do
  let packet ← program.held.get side
  let program ← program.possible (.send side side.opposite packet)
  return { program with held := program.held.set side none }

def conclude (program : Program) : Option Program :=
  match program.session.outcome? with
  | some (.exited _) => some { program with stage := .ended 0 }
  | some (.failed _) => some { program with stage := .ended 1 }
  | none => none

def noTime : Capture.Timestamp := .millis 0

def relay (program : Program) : Option Program :=
  program.conclude <|> program.handOn .simulator <|> program.handOn .client
    <|> program.possible .drain <|> program.possible (.take .simulator noTime)
    <|> program.possible (.take .client noTime) <|> program.possible .shutdown

def next (program : Program) : Option Program :=
  match program.news with
  | (side, effect) :: news => some ({ program with news }.hear side effect)
  | [] =>
    let go (side : Side) : Option Program :=
      (Station.next (program.place side)).map (program.withPlace side)
    go .simulator <|> go .client <|> match program.stage with
      | .relaying => program.relay
      | .connecting | .waiting | .leaving .. | .ended _ => none

def patience (program : Program) : Nat :=
  let waiting (half : Session.Half) : Nat :=
    half.inbox.queued.length + half.inbox.length + half.stream.buffered
  let halves := program.session.halves
  256 + 16 * (program.network.unread + waiting halves.simulator + waiting halves.client)

def settle (program : Program) : Program :=
  go program.patience program
where
  go : Nat → Program → Program
    | 0, program => program
    | more + 1, program =>
      match program.next with
      | some program => go more program
      | none => program

-- The capture file is opened before anything else; nothing is in it until it is flushed. What is
-- found under the name of a helper is said by `programs`.
def start (arguments : CommandLine.Arguments) (network : Network) (acceptors : Channels Nat)
    (programs : String → ProgramFile) (millis : Nat) : Program :=
  let task := arguments.listening
  let dialing : Station := { link := { role := .dialing }, addresses := arguments.simulator }
  let waiting : Station := {
    link := { role := .waiting }
    addresses := ⟨task.control, task.data⟩
    launching := (arguments.helper.launch task (programs arguments.helper.program)).map fun _ => ()
  }
  let program : Program := {
    network, acceptors, stations := ⟨dialing, waiting⟩, frontend := arguments.frontendControl }
  match arguments.capturePath network.files.isDirectory millis with
  | none => program.tell .simulator (.connect establishCall)
  | some path =>
    match network.files.openFile path with
    | .error _ => { program with stage := .ended 1 }
    | .ok (file, files) =>
      let recorder := (Capture.Recorder.create {} {}).2
      let program := { program with
        network := { network with files }
        captured := some (file, [])
        session := { recording := .active recorder } }
      program.tell .simulator (.connect establishCall)

def withPeer (program : Program) (side : Side) (channel : Channel) (stream : Nat) : Program :=
  { program with peers := program.peers.modify side fun peers => peers.set channel (some stream) }

def accept (program : Program) (channel : Channel) : Bool × Program :=
  match program.network.accept (program.acceptors.get channel) with
  | some (stream, network) => (true, { program with network }.withPeer .simulator channel stream)
  | none => (false, program)

def dial (program : Program) (channel : Channel) (path : String) : Nat × Program :=
  match program.network.connect (.unix path) with
  | .ok (stream, network) => (1, { program with network }.withPeer .client channel stream)
  | .error _ => (0, program)

def readPeer (program : Program) (stream : Nat) (count : Option Nat) :
    Bytes × Network.Ending × Program :=
  let unwritten (station : Station) : Nat :=
    station.link.unwritten .control + station.link.unwritten .data
  let (chunks, ending, program) := go stream
    (program.patience + unwritten program.stations.simulator + unwritten program.stations.client)
    count program
  (chunks.flatten, ending, program)
where
  go (stream : Nat) : Nat → Option Nat → Program → List Bytes × Network.Ending × Program
    | 0, _, program => ([], .pending, program)
    | more + 1, count, program =>
      if count = some 0 then ([], .pending, program)
      else
        let (bytes, ending, network) := program.network.peerTake stream count
        let program := { program with network }.settle
        if bytes = [] ∨ ending ≠ .pending then ([bytes], ending, program)
        else
          let (chunks, ending, program) := go stream more (count.map (· - bytes.length)) program
          (bytes :: chunks, ending, program)

def perform (program : Program) : Cue → Answer × Program
  | .establish controlPath dataPath =>
    let (control, program) := program.accept .control
    let (data, program) := program.accept .data
    let (first, program) := program.dial .control controlPath
    let (second, program) := program.dial .data dataPath
    (.established ⟨control, data⟩ (first + second), program.settle)
  | .accept =>
    let (_, program) := program.accept .control
    let (_, program) := program.accept .data
    (.nothing, program.settle)
  | .send who channel bytes =>
    match (program.peers.get who).get channel with
    | some stream =>
      (.nothing, { program with network := program.network.peerSend stream bytes }.settle)
    | none => (.nothing, program)
  | .read who channel count =>
    match (program.peers.get who).get channel with
    | some stream =>
      let (bytes, ending, program) := program.readPeer stream count
      (.read bytes ending, program)
    | none => (.nothing, program)
  | .close who =>
    let peers := program.peers.get who
    let streams := peers.control.toList ++ peers.data.toList
    let network := streams.foldl Network.peerDrop program.network
    (.nothing, { program with network, peers := program.peers.set who ⟨none, none⟩ }.settle)
  | .interrupt =>
    match program.stage with
    | .waiting => (.nothing, ((program.tell .client (.cancel establishCall)).leave 0).settle)
    | .relaying => (.nothing, (program.move .requestShutdown).settle)
    | .connecting | .leaving .. | .ended _ => (.nothing, program)

def play (program : Program) : List Cue → List Answer × Program
  | [] => ([], program)
  | cue :: cues =>
    let (answer, program) := program.perform cue
    let (answers, last) := program.play cues
    (answer :: answers, last)

def exitCode (program : Program) : Option Nat :=
  match program.stage with
  | .ended code => some code
  | _ => none

end Program

end TpmRelay.Rehearsal
