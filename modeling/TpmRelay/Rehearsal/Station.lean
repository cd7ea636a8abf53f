import TpmRelay.Link.Step
import TpmRelay.Network.Basic

set_option autoImplicit false

namespace TpmRelay.Rehearsal

structure Station where
  link : Link
  -- Where the channels are connected to or listened for.
  addresses : Channels Endpoint
  launching : Except Fault Unit := .ok ()
  stopping : Except Fault Unit := .ok ()
  launched : List HelperTask := []
  -- Which of the two socket files were there each time the helper was told to stop.
  terminations : List (Channels Bool) := []
  -- What the link told its users lately.
  told : List Link.Effect := []

abbrev Place := Network × Station

namespace Station

def standing (network : Network) (endpoint : Endpoint) : Bool :=
  endpoint.transport = .unix && (network.files.find? endpoint.address).isSome

def terminate (network : Network) (station : Station) : Station :=
  match station.launched.getLast? with
  | none => station
  | some task =>
    let files := ⟨standing network task.control, standing network task.data⟩
    { station with terminations := station.terminations ++ [files] }

def act (place : Place) (effect : Link.Effect) : Place :=
  let (network, station) := place
  match effect with
  | .put stream bytes => (network.send stream bytes, station)
  | .shut stream => (network.shut stream, station)
  | .drop stream .reader => (network.dropReader stream, station)
  | .drop stream .writer => (network.dropWriter stream, station)
  | .unlisten listener => (network.unlisten listener.number listener.endpoint, station)
  | .launch task (.ok ()) => (network, { station with launched := station.launched ++ [task] })
  | .launch _ (.error _) => place
  | .terminate => (network, station.terminate network)
  | .queue _ | .gaveEvents _ | .resumed _ | .established .. | .wrote .. | .closed =>
    (network, { station with told := station.told ++ [effect] })

-- An impossible move changes nothing.
def move (place : Place) (move : Link.Move) : Place :=
  match place.2.link.step move with
  | none => place
  | some (effects, link) => effects.foldl act (place.1, { place.2 with link })

abbrev Candidate := Link.Move × Network

def dial (network : Network) (station : Station) (channel : Channel) : Candidate :=
  match network.connect (station.addresses.get channel) with
  | .ok (stream, network) => (.connected channel stream, network)
  | .error fault => (.refused channel fault, network)

def welcome (network : Network) (listeners : Channels Link.Listener) (channel : Channel) :
    List Candidate :=
  match network.accept (listeners.get channel).number with
  | some (stream, network) => [(.connected channel stream, network)]
  | none => []

-- Control is bound before data, on another port than the one that data is to be bound to.
def bind (network : Network) (station : Station) (bound : Channels (Option Link.Listener)) :
    Candidate :=
  let (channel, spared) := match bound.control with
    | none => (Channel.control, station.addresses.data.port.toList)
    | some _ => (Channel.data, [])
  match network.bind (station.addresses.get channel) spared with
  | (.ok (number, endpoint), network) =>
    let launching := match station.launching with
      | .ok () => .started
      | .error fault => .refused fault
    (.bound channel ⟨number, endpoint⟩ launching, network)
  | (.error fault, network) => (.unbound channel fault, network)

def establish (network : Network) (station : Station) : List Candidate :=
  match station.link.establishing with
  | .absent =>
    match station.link.gate with
    | .listen .. :: _ => [(.turn, network)]
    | _ => []
  | .binding _ _ bound => [station.bind network bound]
  | .making _ listeners made =>
    if station.link.closing then [(.notice, network)]
    else
      let absent := [Channel.control, .data].filter fun channel => (made.get channel).isNone
      match listeners with
      | none => absent.map (station.dial network)
      | some listeners => absent.flatMap (welcome network listeners)
  | .storing .. => [(.queueUp, network), (.store, network)]
  | .abandoning .. => [(.abandon (.ok ()), network)]

def write (network : Network) (station : Station) (channel : Channel) : List Candidate :=
  let gone stream := ((network.connection? stream).map (·.peerGone)).getD true
  let callOf (holder : Link.Holder) : List Candidate := match holder with
    | .write call .. => [(.abort channel call, network)]
    | .store | .release => []
  let holders := station.link.locks.get channel
  if station.link.closing then holders.flatMap callOf
  else match holders, station.link.writers.get channel with
    | .write _ _ none :: _, _ => [(.begin channel, network)]
    | .write _ _ (some []) :: _, _ => [(.flush channel (.ok ()), network)]
    | .write _ _ (some left) :: _, some stream =>
      if gone stream then [(.putFails channel ⟨.brokenPipe, none⟩, network)]
      else [(.put channel (left.take (network.room stream)).length, network)]
    | _, _ => []

def read (network : Network) (station : Station) (channel : Channel) : List Candidate :=
  match station.link.readers.get channel with
  | .running stream =>
    match network.connection? stream with
    | none => [(.readEnd channel, network)]
    | some connection =>
      let bytes := connection.inward.take Link.chunkLimit
      if bytes ≠ [] then [(.read channel bytes, network.receive stream bytes.length)]
      else if connection.peerEnded then [(.readEnd channel, network)]
      else []
  | _ => []

def close (network : Network) (station : Station) : List Candidate :=
  match station.link.closer with
  | .waiting => [(.closeQueueUp, network), (.closeAlone, network)]
  | .locking _ => [(.closeQueueUp, network), (.closeLock, network)]
  | .shutting .. => [(.closeShut (.ok ()), network)]
  | .stopping => [(.stopped station.stopping, network)]
  | .absent | .returned => []

def candidates (network : Network) (station : Station) : List Candidate :=
  station.establish network ++ station.write network .control ++ station.write network .data ++
    station.close network ++ station.read network .control ++ station.read network .data

def next (place : Place) : Option Place :=
  let (network, station) := place
  (station.candidates network).findSome? fun (choice, network) =>
    (station.link.step choice).map fun (effects, link) =>
      effects.foldl act (network, { station with link })

def patience (place : Place) : Nat :=
  let (network, station) := place
  let link := station.link
  let queues := link.locks.control.length + link.locks.data.length
  64 + 8 * link.gate.length + 4 * queues + network.unread

def settle (place : Place) : Place :=
  go (patience place) place
where
  go : Nat → Place → Place
    | 0, place => place
    | more + 1, place =>
      match next place with
      | some place => go more place
      | none => place

def peerRead (place : Place) (stream : Nat) : Bytes × Network.Ending × Place :=
  let link := place.2.link
  let (chunks, ending, place) :=
    go stream (link.unwritten .control + link.unwritten .data + 2) place
  (chunks.flatten, ending, place)
where
  go (stream : Nat) : Nat → Place → List Bytes × Network.Ending × Place
    | 0, place => ([], .pending, place)
    | more + 1, place =>
      let (bytes, ending, network) := place.1.peerRead stream
      let place := settle (network, place.2)
      if bytes = [] ∨ ending ≠ .pending then ([bytes], ending, place)
      else
        let (chunks, ending, place) := go stream more place
        (bytes :: chunks, ending, place)

end Station

end TpmRelay.Rehearsal
