import TpmRelay.Rehearsal.Station

set_option autoImplicit false

namespace TpmRelay.Rehearsal

namespace Bench

inductive Step where
  | connect
  -- Another link is connected to the same addresses and closed again.
  | connectApart
  | listen
  | state
  | takeEvents
  | resume
  | close
  | write (channel : Channel) (bytes : Bytes)
  -- Nobody waits for the end of the write.
  | startWrite (channel : Channel) (bytes : Bytes)
  | peerConnect (channel : Channel)
  | peerSend (channel : Channel) (bytes : Bytes)
  | peerEnd (channel : Channel)
  | peerClose (channel : Channel)
  | peerRead (channel : Channel)
  deriving DecidableEq, Repr

inductive Answer where
  | nothing
  | given (given : Bool)
  | resumed (result : Except Link.Error Unit)
  | connected (result : Except Link.Error Unit) (accepted : Channels Bool)
  -- The states before and after closing the other link.
  | apart (result : Except Link.Error (Link.State × Link.State))
  | wrote (result : Except Fault Unit)
  | read (bytes : Bytes) (ending : Network.Ending)
  | noPeer
  | noAddress

inductive Finished where
  | listen (result : Except Link.Error Unit)
  | write (result : Except Fault Unit)

structure Report where
  answer : Answer
  state : Link.State
  -- Events since the last report; absent as long as nobody has taken the events.
  events : Option (List Link.Event)
  finished : List Finished
  launched : List HelperTask
  terminations : List (Channels Bool)
  -- What is found at the paths of the two addresses.
  files : Channels (Option FileTree.Node)

end Bench

structure Bench where
  network : Network := {}
  station : Station
  frontend : String := ""
  -- Listeners at which the peers of a dialing link wait.
  acceptors : Channels (Option Nat) := ⟨none, none⟩
  peers : Channels (Option Nat) := ⟨none, none⟩
  calls : Nat := 0
  background : List Nat := []
  events : List Link.Event := []

namespace Bench

def withPlace (bench : Bench) (place : Place) : Bench :=
  { bench with network := place.1, station := place.2 }

def go (bench : Bench) (move : Link.Move) : Bench :=
  bench.withPlace (Station.settle (Station.move (bench.network, bench.station) move))

def settle (bench : Bench) : Bench :=
  bench.withPlace (Station.settle (bench.network, bench.station))

def establishedBy (bench : Bench) (call : Nat) : Except Link.Error Unit :=
  let result : Link.Effect → Option (Except Link.Error Unit)
    | .established other result => if other = call then some result else none
    | _ => none
  (bench.station.told.findSome? result).getD (.error .notConnected)

def writtenBy (bench : Bench) (call : Nat) : Option (Except Fault Unit) :=
  bench.station.told.findSome? fun effect => match effect with
    | .wrote other result => if other = call then some result else none
    | _ => none

def resumed (bench : Bench) : Except Link.Error Unit :=
  let result : Link.Effect → Option (Except Link.Error Unit)
    | .resumed result => some result
    | _ => none
  (bench.station.told.findSome? result).getD (.ok ())

def gaveEvents (bench : Bench) : Bool :=
  bench.station.told.any fun effect => match effect with
    | .gaveEvents given => given
    | _ => false

def seat (bench : Bench) (channel : Channel) (stream : Option Nat) : Bench :=
  let network := match bench.peers.get channel with
    | some old => bench.network.peerDrop old
    | none => bench.network
  { bench with network, peers := bench.peers.set channel stream }

def acceptAt (bench : Bench) (channel : Channel) : Bool × Bench :=
  match (bench.acceptors.get channel).bind bench.network.accept with
  | some (stream, network) => (true, { bench with network }.seat channel (some stream))
  | none => (false, bench)

def connectApart (bench : Bench) : Answer × Bench :=
  let other : Station := { link := { role := .dialing }, addresses := bench.station.addresses }
  let (network, connected) :=
    Station.settle (Station.move (bench.network, other) (.connect 0))
  match establishedBy { bench with station := connected } 0 with
  | .error error => (.apart (.error error), { bench with network })
  | .ok () =>
    let (network, closed) := Station.settle (Station.move (network, connected) .close)
    (.apart (.ok (connected.link.state, closed.link.state)), { bench with network })

def asPeer (bench : Bench) (channel : Channel) (act : Network → Nat → Network) : Answer × Bench :=
  match bench.peers.get channel with
  | none => (.noPeer, bench)
  | some stream => (.nothing, { bench with network := act bench.network stream }.settle)

def perform (bench : Bench) (step : Step) : Answer × Bench :=
  let call := bench.calls
  let counted := { bench with calls := call + 1 }
  let unattended := { counted with background := call :: bench.background }
  match step with
  | .state => (.nothing, bench.settle)
  | .connect =>
    let bench := counted.go (.connect call)
    let result := bench.establishedBy call
    let (control, bench) := bench.acceptAt .control
    let (data, bench) := bench.acceptAt .data
    (.connected result ⟨control, data⟩, bench.settle)
  | .connectApart => bench.connectApart
  | .listen => (.nothing, unattended.go (.listen call bench.frontend))
  | .takeEvents =>
    let bench := bench.go .takeEvents
    (.given bench.gaveEvents, bench)
  | .resume =>
    let bench := bench.go .resume
    (.resumed bench.resumed, bench)
  | .close => (.nothing, bench.go .close)
  | .write channel bytes =>
    let bench := counted.go (.write call channel bytes)
    ((bench.writtenBy call).elim .nothing .wrote, bench)
  | .startWrite channel bytes => (.nothing, unattended.go (.write call channel bytes))
  | .peerConnect channel =>
    match bench.station.launched.getLast? with
    | none => (.noAddress, bench)
    | some task =>
      let endpoint := match channel with
        | .control => task.control
        | .data => task.data
      match bench.network.connect endpoint with
      | .error fault => (.wrote (.error fault), bench)
      | .ok (stream, network) =>
        (.nothing, ({ bench with network }.seat channel (some stream)).settle)
  | .peerClose channel => (.nothing, (bench.seat channel none).settle)
  | .peerSend channel bytes =>
    bench.asPeer channel fun network stream => network.peerSend stream bytes
  | .peerEnd channel => bench.asPeer channel Network.peerEnd
  | .peerRead channel =>
    match bench.peers.get channel with
    | none => (.noPeer, bench)
    | some stream =>
      let (bytes, ending, place) := Station.peerRead (bench.network, bench.station) stream
      (.read bytes ending, bench.withPlace place)

def finished (bench : Bench) : List Finished :=
  bench.station.told.filterMap fun effect => match effect with
    | .established call result => if call ∈ bench.background then some (.listen result) else none
    | .wrote call result => if call ∈ bench.background then some (.write result) else none
    | _ => none

def arrived (bench : Bench) : List Link.Event :=
  bench.station.told.filterMap fun effect => match effect with
    | .queue event => some event
    | _ => none

def file (bench : Bench) (endpoint : Endpoint) : Option FileTree.Node :=
  match endpoint.transport with
  | .tcp => none
  | .unix => bench.network.files.find? endpoint.address

def report (bench : Bench) (step : Step) : Report × Bench :=
  let (answer, bench) := { bench with station := { bench.station with told := [] } }.perform step
  let events := bench.events ++ bench.arrived
  let taken := bench.station.link.eventsTaken
  let report : Report := {
    answer
    state := bench.station.link.state
    events := if taken then some events else none
    finished := bench.finished
    launched := bench.station.launched
    terminations := bench.station.terminations
    files := ⟨bench.file bench.station.addresses.control, bench.file bench.station.addresses.data⟩ }
  (report, { bench with events := if taken then [] else events })

def play (bench : Bench) : List Step → List Report
  | [] => []
  | step :: steps =>
    let (report, bench) := bench.report step
    report :: bench.play steps

end Bench

end TpmRelay.Rehearsal
