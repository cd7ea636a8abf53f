import TpmRelay.Bytes
import TpmRelay.Fault
import TpmRelay.Sides

set_option autoImplicit false

namespace TpmRelay.Link

inductive State where
  | idle
  | establishing (made : Channels Bool)
  | ready
  | failed
  | closed
  deriving DecidableEq, Repr

def State.text : State → String
  | idle => "Idle"
  | establishing made =>
    s!"Establishing \x7b control_ready: {made.control}, data_ready: {made.data} \x7d"
  | ready => "Ready"
  | failed => "Failed"
  | closed => "Closed"

-- An attempt that is under way comes to nothing.
def State.fail : State → State
  | establishing _ => failed
  | other => other

def State.markMade (channel : Channel) : State → State
  | establishing made => establishing (made.set channel true)
  | other => other

inductive Event where
  | chunk (channel : Channel) (bytes : Bytes)
  -- Nothing follows this event.
  | closed
  deriving DecidableEq, Repr

def Event.length : Event → Nat
  | chunk _ bytes => bytes.length
  | closed => 0

inductive Error where
  | transport (fault : Fault)
  | helper (fault : Fault)
  | alreadyStarted (state : State)
  | notConnected
  | eventsTaken
  | closed
  deriving DecidableEq, Repr

def Error.message : Error → String
  | transport fault => "Transport error: " ++ fault.text
  | helper fault => "Could not launch the bridging helper: " ++ fault.text
  | alreadyStarted state =>
    "Connection establishment was already attempted (state is " ++ state.text ++ ")"
  | notConnected => "The endpoint is not connected"
  | eventsTaken => "The endpoint's events were already taken"
  | closed => "The endpoint was closed"

-- The events that wait to be taken; once the link is gone nothing is added any more.
structure Inbox where
  queued : List Event := []
  hungUp : Bool := false
  deriving DecidableEq, Repr

namespace Inbox

def put (inbox : Inbox) (event : Event) : Inbox :=
  if inbox.hungUp then inbox else { inbox with queued := inbox.queued ++ [event] }

def hangUp (inbox : Inbox) : Inbox :=
  { inbox with hungUp := true }

def length (inbox : Inbox) : Nat :=
  inbox.queued.foldl (fun total event => total + event.length) 0

-- The oldest event, or word that none will come; absent while there may be one later.
def take (inbox : Inbox) : Option (Option Event × Inbox) :=
  match inbox.queued with
  | event :: queued => some (some event, { inbox with queued })
  | [] => if inbox.hungUp then some (none, inbox) else none

end Inbox

end TpmRelay.Link
