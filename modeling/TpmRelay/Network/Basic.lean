import TpmRelay.Address.Endpoint
import TpmRelay.FileTree.Basic
import TpmRelay.Network.Parcel
import TpmRelay.Network.Port

set_option autoImplicit false

namespace TpmRelay

namespace Network

-- One connection, seen from the link: bytes on their way, and what is left of its two ends.
structure Connection where
  inward : Bytes := []
  outward : List Parcel := []
  -- The peer sends nothing more.
  peerEnded : Bool := false
  peerGone : Bool := false
  -- The link sends nothing more.
  linkEnded : Bool := false
  readerHeld : Bool := true
  writerHeld : Bool := true
  -- The link went away without reading everything, and the peer has not noticed yet.
  reset : Bool := false
  deriving DecidableEq, Repr

end Network

-- There is no route to any TCP address, but TCP ports can be bound.
structure Network where
  files : FileTree := {}
  -- Connections that wait at each listener, oldest first.
  backlogs : List (List Nat) := []
  -- The TCP ports in use, each with the number of its listener.
  ports : List (Nat × Ip × UInt16) := []
  connections : List Network.Connection := []
  deriving DecidableEq, Repr

namespace Network

def capacity : Nat := 212992

def pathLimit : Nat := 107

def connection? (network : Network) (number : Nat) : Option Connection :=
  network.connections[number]?

def modifyConnection (network : Network) (number : Nat) (f : Connection → Connection) : Network :=
  { network with connections := network.connections.modify number f }

def unread (network : Network) : Nat :=
  network.connections.foldl (fun total connection => total + connection.inward.length) 0

def checkSocketPath (path : String) : Except Fault Unit :=
  if Path.hasNul path then
    .error ⟨.invalidInput, some "paths must not contain interior null bytes"⟩
  else if path.utf8ByteSize > pathLimit then
    .error ⟨.invalidInput, some "path must be shorter than SUN_LEN"⟩
  else .ok ()

def isAbstract (path : String) : Bool :=
  path.toList.head? = some '\x00'

-- The name that follows the NUL may be as long as a path.
def abstractFault (path : String) : Fault :=
  if path.utf8ByteSize = 1 then ⟨.invalidInput, none⟩
  else if path.utf8ByteSize > pathLimit + 1 then
    ⟨.invalidInput, some "abstract socket name must be shorter than SUN_LEN"⟩
  else ⟨.connectionRefused, none⟩

def noIp (endpoint : Endpoint) : Fault :=
  ⟨.invalidInput, some (endpoint.text ++ " does not hold an IP address")⟩

def listenerAt (network : Network) (endpoint : Endpoint) : Except Fault Nat :=
  match endpoint.transport with
  | .tcp =>
    match endpoint.socketAddress with
    | none => .error (noIp endpoint)
    | some (ip, _) =>
      if ip.isLinkLocal then .error ⟨.invalidInput, none⟩ else .error ⟨.networkUnreachable, none⟩
  | .unix => do
    if isAbstract endpoint.address then throw (abstractFault endpoint.address)
    checkSocketPath endpoint.address
    if endpoint.address = "" then throw ⟨.invalidInput, none⟩
    let node ← network.files.lookUp endpoint.address
    if !node.isWritable then throw ⟨.permissionDenied, none⟩
    match node.kind with
    | .socket (some listener) => return listener
    | _ => throw ⟨.connectionRefused, none⟩

-- A new connection waits at its listener; whoever made it may use it at once.
def connect (network : Network) (endpoint : Endpoint) : Except Fault (Nat × Network) := do
  let listener ← network.listenerAt endpoint
  let number := network.connections.length
  return (number, { network with
    connections := network.connections ++ [{}]
    backlogs := network.backlogs.modify listener (· ++ [number]) })

def accept (network : Network) (listener : Nat) : Option (Nat × Network) :=
  match network.backlogs[listener]? with
  | some (number :: rest) =>
    some (number, { network with backlogs := network.backlogs.set listener rest })
  | _ => none

-- A file in the way of a socket is removed, but not a directory.
def clear (files : FileTree) (path : String) : Except Fault FileTree :=
  match files.remove path with
  | .error ⟨.notFound, _⟩ => .ok files
  | result => result

def addListener (network : Network) : Nat × Network :=
  (network.backlogs.length, { network with backlogs := network.backlogs ++ [[]] })

-- A listener is in the way of another one at its port if their addresses are the same or one of
-- them stands for all.
def portTaken (network : Network) (ip : Ip) (port : UInt16) : Bool :=
  network.ports.any fun (_, takenIp, taken) =>
    taken = port && (takenIp = ip || takenIp.isUnspecified || ip.isUnspecified)

-- An open port is chosen here; the ports in `spared` are left to others.
def bindTcp (network : Network) (ip : Ip) (port : UInt16) (spared : List UInt16) :
    Except Fault (Nat × Endpoint) × Network :=
  let (number, bound) := network.addListener
  let own := ip.unmapped
  let port := if port = 0 then Port.free (spared ++ network.ports.map (·.2.2)) else port
  match Port.check own port with
  | .error fault => (.error fault, network)
  | .ok () =>
    if network.portTaken own port then (.error ⟨.addressInUse, none⟩, network)
    else (.ok (number, .tcp ip port), { bound with ports := bound.ports ++ [(number, own, port)] })

-- Where no mode is asked for, the owner alone may write.
def socketMode (mode : Option UInt32) : UInt32 :=
  (mode.getD 0o755) &&& 0o7777

-- The files with the socket of a listener among them. An empty path stands for a name that no file
-- has.
def withSocket (files : FileTree) (path : String) (mode : Option UInt32) (listener : Nat) :
    Except Fault FileTree :=
  if path = "" then
    if mode.isSome then .error ⟨.notFound, none⟩ else .ok files
  else do
    checkSocketPath path
    return (← files.create path (.socket (some listener)) (socketMode mode)).2

def bindUnix (network : Network) (path : String) (mode : Option UInt32) :
    Except Fault (Nat × Endpoint) × Network :=
  match clear network.files path with
  | .error fault => (.error fault, network)
  | .ok cleared =>
    let (number, bound) := network.addListener
    match withSocket cleared path mode number with
    | .error fault => (.error fault, { network with files := cleared })
    | .ok files => (.ok (number, .unix path), { bound with files })

-- Binds a listener and says where it is bound. A file in its way is gone even if it fails.
def bind (network : Network) (endpoint : Endpoint) (spared : List UInt16) :
    Except Fault (Nat × Endpoint) × Network :=
  match endpoint.transport, endpoint.socketAddress with
  | .tcp, none => (.error (noIp endpoint), network)
  | .tcp, some (ip, port) => network.bindTcp ip port spared
  | .unix, _ => network.bindUnix endpoint.address endpoint.mode

def Connection.settle (connection : Connection) : Connection :=
  if connection.readerHeld ∨ connection.writerHeld then connection
  else { connection with
    linkEnded := true
    reset := connection.reset || !connection.inward.isEmpty
    inward := [] }

def dropReader (network : Network) (number : Nat) : Network :=
  network.modifyConnection number fun connection =>
    { connection with readerHeld := false }.settle

def dropWriter (network : Network) (number : Nat) : Network :=
  network.modifyConnection number fun connection =>
    { connection with writerHeld := false, linkEnded := true }.settle

def shut (network : Network) (number : Nat) : Network :=
  network.modifyConnection number fun connection => { connection with linkEnded := true }

-- The file goes first, whoever owns it by now; connections that still wait are reset.
def unlisten (network : Network) (listener : Nat) (endpoint : Endpoint) : Network :=
  let files := match endpoint.transport with
    | .tcp => network.files
    | .unix => (network.files.remove endpoint.address).toOption.getD network.files
  let network := { network with files }
  let waiting := (network.backlogs[listener]?).getD []
  let refuse (network : Network) (number : Nat) : Network :=
    network.modifyConnection number fun connection =>
      { connection with
        readerHeld := false, writerHeld := false, linkEnded := true, reset := true, inward := [] }
  { waiting.foldl refuse network with
    backlogs := network.backlogs.set listener []
    ports := network.ports.filter (·.1 ≠ listener) }

def room (network : Network) (number : Nat) : Nat :=
  match network.connection? number with
  | some connection =>
    if Parcel.totalWeight connection.outward < capacity then Parcel.limit else 0
  | none => 0

def send (network : Network) (number : Nat) (bytes : Bytes) : Network :=
  network.modifyConnection number fun connection =>
    { connection with outward := connection.outward ++ [Parcel.ofBytes bytes] }

def receive (network : Network) (number count : Nat) : Network :=
  network.modifyConnection number fun connection =>
    { connection with inward := connection.inward.drop count }

-- What the peer sends after its end, or to a link that does not read any more, is lost.
def peerSend (network : Network) (number : Nat) (bytes : Bytes) : Network :=
  network.modifyConnection number fun connection =>
    if connection.readerHeld ∧ !connection.peerEnded then
      { connection with inward := connection.inward ++ bytes }
    else connection

def peerEnd (network : Network) (number : Nat) : Network :=
  network.modifyConnection number fun connection => { connection with peerEnded := true }

def peerDrop (network : Network) (number : Nat) : Network :=
  network.modifyConnection number fun connection =>
    { connection with peerEnded := true, peerGone := true, outward := [] }

inductive Ending where
  | pending
  | ended
  | reset
  deriving DecidableEq, Repr

-- The peer takes `count` of the bytes that have come out, or all of them; where it gets less than
-- it asked for, it sees how the stream stands.
def peerTake (network : Network) (number : Nat) (count : Option Nat) : Bytes × Ending × Network :=
  match network.connection? number with
  | none => ([], .ended, network)
  | some connection =>
    let (taken, left) := match count with
      | some count => Parcel.take count connection.outward
      | none => (Parcel.contents connection.outward, [])
    let ending :=
      if count = some taken.length then .pending
      else if connection.reset then .reset
      else if connection.linkEnded then .ended
      else .pending
    (taken, ending, network.modifyConnection number fun connection =>
      { connection with
        outward := left
        reset := connection.reset && ending ≠ .reset })

def peerRead (network : Network) (number : Nat) : Bytes × Ending × Network :=
  network.peerTake number none

end Network

end TpmRelay
