import TpmRelay.Link.Basic
import TpmRelay.Link.Helper

set_option autoImplicit false

namespace TpmRelay

namespace Link

inductive Role where
  | dialing
  | waiting
  deriving DecidableEq, Repr

-- A connection, by its number. Its two halves are held and dropped on their own.
abbrev Stream := Nat

inductive Half where
  | reader
  | writer
  deriving DecidableEq, Repr

structure Listener where
  number : Nat
  -- Where it is really bound.
  endpoint : Endpoint
  deriving DecidableEq, Repr

inductive Holder where
  -- `left` is what is still to be written, once the call has the writer.
  | write (call : Nat) (bytes : Bytes) (left : Option Bytes)
  | store
  | release
  deriving DecidableEq, Repr

inductive Waiter where
  | listen (call : Nat) (frontend : String)
  | close
  deriving DecidableEq, Repr

inductive Establishing where
  | absent
  -- A waiting link binds its listeners.
  | binding (call : Nat) (frontend : String) (bound : Channels (Option Listener))
  -- Connections come in; a waiting link holds its listeners meanwhile.
  | making (call : Nat) (listeners : Option (Channels Listener)) (made : Channels (Option Stream))
  -- Both connections are there; the writer of `channel` is the next to be stored.
  | storing (call : Nat) (channel : Channel) (made : Channels Stream)
  -- The connections that were made are shut down one by one.
  | abandoning (call : Nat) (error : Error) (left : List Stream)
  deriving DecidableEq, Repr

def Establishing.owner? : Establishing → Option Nat
  | absent => none
  | binding call .. | making call .. | storing call .. | abandoning call .. => some call

inductive Launching where
  -- It cannot be told where a listener is bound.
  | unplaced (fault : Fault)
  | refused (fault : Fault)
  | started
  deriving DecidableEq, Repr

inductive Closer where
  | absent
  -- Waits for the establishing calls to let go.
  | waiting
  | locking (channel : Channel)
  | shutting (channel : Channel) (stream : Stream)
  -- The helper has been told to stop.
  | stopping
  | returned
  deriving DecidableEq, Repr

inductive Reader where
  | absent
  | running (stream : Stream)
  | finished
  | aborted
  deriving DecidableEq, Repr

inductive Effect where
  | queue (event : Event)
  | put (stream : Stream) (bytes : Bytes)
  -- The sending direction is ended.
  | shut (stream : Stream)
  | drop (stream : Stream) (half : Half)
  | unlisten (listener : Listener)
  | launch (task : HelperTask) (result : Except Fault Unit)
  | terminate
  | gaveEvents (given : Bool)
  | resumed (result : Except Error Unit)
  | established (call : Nat) (result : Except Error Unit)
  | wrote (call : Nat) (result : Except Fault Unit)
  | closed

inductive Move where
  | connect (call : Nat)
  | listen (call : Nat) (frontend : String)
  -- The first listening call has its turn.
  | turn
  -- How launching would go matters once both listeners are bound.
  | bound (channel : Channel) (listener : Listener) (launching : Launching)
  | unbound (channel : Channel) (fault : Fault)
  -- At the listener of the channel, or at the address that is dialed for it.
  | connected (channel : Channel) (stream : Stream)
  | refused (channel : Channel) (fault : Fault)
  -- The establishing call sees that the link is being closed.
  | notice
  -- The establishing call queues for the writer that it stores next.
  | queueUp
  | store
  | abandon (result : Except Fault Unit)
  -- The caller loses interest in an establishing call.
  | cancel (call : Nat)
  | takeEvents
  | resume
  | read (channel : Channel) (bytes : Bytes)
  | readEnd (channel : Channel)
  | write (call : Nat) (channel : Channel) (bytes : Bytes)
  -- The first in the queue for the writer of a channel starts to write.
  | begin (channel : Channel)
  | put (channel : Channel) (count : Nat)
  | putFails (channel : Channel) (fault : Fault)
  | flush (channel : Channel) (result : Except Fault Unit)
  -- A write call sees that the link is being closed.
  | abort (channel : Channel) (call : Nat)
  -- The caller loses interest in a write call.
  | forget (channel : Channel) (call : Nat)
  | close
  -- The closing call queues for what it waits for.
  | closeQueueUp
  | closeAlone
  | closeLock
  | closeShut (result : Except Fault Unit)
  | stopped (result : Except Fault Unit)

end Link

-- Calls are numbered by their callers. Whoever needs a writer, or must not run beside another
-- establishing call, queues for it; the first in a queue has it.
structure Link where
  role : Link.Role
  state : Link.State := .idle
  writers : Channels (Option Link.Stream) := ⟨none, none⟩
  locks : Channels (List Link.Holder) := ⟨[], []⟩
  paused : Option (Channels Link.Stream) := none
  readers : Channels Link.Reader := ⟨.absent, .absent⟩
  openReaders : Nat := 0
  -- All events queued so far, whether or not anybody is left to take them.
  queued : List Link.Event := []
  notified : Bool := false
  eventsTaken : Bool := false
  closing : Bool := false
  establishing : Link.Establishing := .absent
  gate : List Link.Waiter := []
  listeners : Option (Channels Link.Listener) := none
  helper : Bool := false
  closer : Link.Closer := .absent
  deriving DecidableEq, Repr

namespace Link

def Holder.unwritten : Holder → Nat
  | write _ bytes left => (left.getD bytes).length
  | store | release => 0

def unwritten (link : Link) (channel : Channel) : Nat :=
  (link.locks.get channel).foldl (fun total holder => total + holder.unwritten) 0

end Link

end TpmRelay
