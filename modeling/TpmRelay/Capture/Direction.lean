import TpmRelay.Sides

set_option autoImplicit false

namespace TpmRelay

structure Direction where
  side : Side
  channel : Channel
  deriving DecidableEq, Repr

namespace Direction

def text (direction : Direction) : String :=
  direction.side.name ++ " " ++ direction.channel.name

def all : List Direction :=
  [⟨.simulator, .control⟩, ⟨.simulator, .data⟩, ⟨.client, .control⟩, ⟨.client, .data⟩]

end Direction

abbrev Directions (α : Type) := Sides (Channels α)

namespace Directions

variable {α : Type}

def ofFn (f : Direction → α) : Directions α :=
  let channels side : Channels α := ⟨f ⟨side, .control⟩, f ⟨side, .data⟩⟩
  ⟨channels .simulator, channels .client⟩

def pick (values : Directions α) (direction : Direction) : α :=
  (values.get direction.side).get direction.channel

def put (values : Directions α) (direction : Direction) (value : α) : Directions α :=
  values.set direction.side ((values.get direction.side).set direction.channel value)

end Directions

end TpmRelay
