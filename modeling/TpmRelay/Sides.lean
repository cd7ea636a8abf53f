set_option autoImplicit false

namespace TpmRelay

inductive Side where
  | simulator
  | client
  deriving DecidableEq, Repr

namespace Side

def name : Side → String
  | simulator => "upstream"
  | client => "downstream"

def opposite : Side → Side
  | simulator => client
  | client => simulator

@[simp] theorem opposite_opposite (side : Side) : side.opposite.opposite = side := by
  cases side <;> rfl

end Side

inductive Channel where
  | control
  | data
  deriving DecidableEq, Repr

def Channel.name : Channel → String
  | control => "control"
  | data => "data"

structure Sides (α : Type) where
  simulator : α
  client : α
  deriving DecidableEq, Repr

namespace Sides

variable {α : Type}

def get (pair : Sides α) : Side → α
  | .simulator => pair.simulator
  | .client => pair.client

def set (pair : Sides α) (side : Side) (value : α) : Sides α :=
  match side with
  | .simulator => { pair with simulator := value }
  | .client => { pair with client := value }

def modify (pair : Sides α) (side : Side) (f : α → α) : Sides α :=
  pair.set side (f (pair.get side))

@[simp] theorem get_set (pair : Sides α) (side other : Side) (value : α) :
    (pair.set side value).get other = if other = side then value else pair.get other := by
  cases side <;> cases other <;> rfl

end Sides

structure Channels (α : Type) where
  control : α
  data : α
  deriving DecidableEq, Repr

namespace Channels

variable {α : Type}

def get (pair : Channels α) : Channel → α
  | .control => pair.control
  | .data => pair.data

def set (pair : Channels α) (channel : Channel) (value : α) : Channels α :=
  match channel with
  | .control => { pair with control := value }
  | .data => { pair with data := value }

def modify (pair : Channels α) (channel : Channel) (f : α → α) : Channels α :=
  pair.set channel (f (pair.get channel))

def toList (pair : Channels α) : List α :=
  [pair.control, pair.data]

def present (pair : Channels (Option α)) : List α :=
  pair.control.toList ++ pair.data.toList

@[simp] theorem get_set (pair : Channels α) (channel other : Channel) (value : α) :
    (pair.set channel value).get other = if other = channel then value else pair.get other := by
  cases channel <;> cases other <;> rfl

theorem present_eq_nil {pair : Channels (Option α)} : pair.present = [] ↔ pair = ⟨none, none⟩ := by
  obtain ⟨_ | _, _ | _⟩ := pair <;> simp [present]

theorem present_set {pair : Channels (Option α)} {channel : Channel}
    (missing : pair.get channel = none) (value : α) :
    (pair.set channel (some value)).present.Perm (value :: pair.present) := by
  obtain ⟨control, data⟩ := pair
  cases channel with
  | control =>
    obtain rfl : control = none := missing
    rfl
  | data =>
    obtain rfl : data = none := missing
    cases control with
    | none => rfl
    | some control => exact .swap ..

theorem present_unset {pair : Channels (Option α)} {channel : Channel} {value : α}
    (there : pair.get channel = some value) :
    pair.present.Perm (value :: (pair.set channel none).present) := by
  have missing : (pair.set channel none).get channel = none := by simp
  have same : (pair.set channel none).set channel (some value) = pair := by
    rw [← there]
    cases channel <;> rfl
  have present := present_set missing value
  rwa [same] at present

end Channels

end TpmRelay
