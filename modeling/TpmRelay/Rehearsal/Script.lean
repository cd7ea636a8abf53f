import TpmRelay.Session.Basic

set_option autoImplicit false

namespace TpmRelay.Rehearsal

structure ScriptedLink where
  opening : Session.Opening := {}
  -- The write that fails on each channel, counted from zero.
  failing : Channels (Option Nat) := ⟨none, none⟩
  writes : Channels Nat := ⟨0, 0⟩
  state : Link.State := .ready

def ScriptedLink.write (link : ScriptedLink) (channel : Channel) :
    Except Fault Unit × ScriptedLink :=
  let count := link.writes.get channel
  let result := if link.failing.get channel = some count then
      .error ⟨.brokenPipe, some (channel.name ++ " write " ++ Numeral.decimal count ++ " failed")⟩
    else .ok ()
  (result, { link with writes := link.writes.set channel (count + 1) })

inductive Action where
  -- Sends the packet to the other side.
  | forward
  | forwardResized (size : UInt32)
  -- A failing send does not end the call.
  | forwardAnyway
  | reply
  | send (packet : Packet)
  | sendBack (packet : Packet)
  -- Waits for a permit of the own side.
  | gate
  | pause
  | fail (text : String)
  deriving DecidableEq, Repr

structure Rule where
  code : Option UInt32 := none
  actions : List Action
  deriving DecidableEq, Repr

def Rule.appliesTo (rule : Rule) (packet : Packet) : Bool :=
  rule.code.all (· = packet.code)

def actionsFor (rules : List Rule) (packet : Packet) : List Action :=
  match rules.find? (·.appliesTo packet) with
  | some rule => rule.actions
  | none => [.forward]

structure Call where
  packet : Packet
  rest : List Action
  begun : Bool := false
  deriving DecidableEq, Repr

inductive Cue where
  | send (side : Side) (events : List Link.Event)
  | hangUp (side : Side)
  | release (side : Side)
  | shutdown
  | inject (side : Side) (packet : Packet)
  deriving DecidableEq, Repr

end TpmRelay.Rehearsal
