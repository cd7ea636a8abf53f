import TpmRelay.Capture.Recorder
import TpmRelay.Link.Basic
import TpmRelay.Session.Note

set_option autoImplicit false

namespace TpmRelay

inductive Recording where
  | absent
  | active (recorder : Capture.Recorder)
  | abandoned (recorder : Capture.Recorder)
  | finished (recorder : Capture.Recorder)
  deriving DecidableEq, Repr

def Recording.recorder? : Recording → Option Capture.Recorder
  | absent => none
  | active recorder | abandoned recorder | finished recorder => some recorder

namespace Session

structure Half where
  inbox : Link.Inbox := {}
  stream : Reassembly := {}
  call : Option Packet := none
  deriving DecidableEq, Repr

inductive Phase where
  | opening
  | relaying
  -- Control bytes of `source` are being written to the other side; all else waits.
  | forwarding (source : Side) (chunk : Bytes)
  -- `closed` is gone; the stream of `current` is emptied, and only its call goes on.
  | draining (closed current : Side)
  -- The link of `current` is being closed.
  | releasing (current : Side) (outcome : Outcome)
  | ended (outcome : Outcome)
  deriving DecidableEq, Repr

inductive Effect where
  | takeEvents (side : Side)
  | resume (side : Side)
  | write (side : Side) (channel : Channel) (bytes : Bytes)
  | close (side : Side)
  -- The packet is handed to the handler of the side that it came from.
  | dispatch (side : Side) (packet : Packet)
  | flush
  | note (note : Note)
  deriving DecidableEq, Repr

structure Opening where
  events : Except Link.Error Unit := .ok ()
  resumed : Except Link.Error Unit := .ok ()

inductive Move where
  | arrive (side : Side) (event : Link.Event)
  | hangUp (side : Side)
  | requestShutdown
  | start (answers : Sides Opening)
  | take (side : Side) (time : Capture.Timestamp)
  | forwarded (result : Except Fault Unit)
  -- The handler call of `caller` writes a packet to the link of `target`.
  | send (caller target : Side) (packet : Packet)
  | returned (side : Side) (result : Except Fault Unit)
  -- Draining goes on where there is no call to wait for.
  | drain
  | shutdown
  | released

end Session

structure Session where
  phase : Session.Phase := .opening
  halves : Sides Session.Half := ⟨{}, {}⟩
  recording : Recording := .absent
  shutdownRequested : Bool := false
  deriving DecidableEq, Repr

namespace Session

def half (session : Session) (side : Side) : Half :=
  session.halves.get side

def withHalf (session : Session) (side : Side) (f : Half → Half) : Session :=
  { session with halves := session.halves.modify side f }

def polls (session : Session) (side : Side) : Bool :=
  match session.phase with
  | .relaying => true
  | .draining _ current => current = side
  | _ => false

def outcome? (session : Session) : Option Outcome :=
  match session.phase with
  | .ended outcome => some outcome
  | _ => none

end Session

end TpmRelay
