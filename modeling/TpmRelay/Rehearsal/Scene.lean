import TpmRelay.Rehearsal.Script
import TpmRelay.Session.Step

set_option autoImplicit false

namespace TpmRelay.Rehearsal

inductive Entry where
  | tookEvents (side : Side)
  | resumed (side : Side)
  | wrote (side : Side) (channel : Channel) (bytes : Bytes)
  | writeFailed (side : Side) (channel : Channel)
  | closed (side : Side)
  | dispatched (side : Side) (packet : Packet)
  | begun (side : Side) (code : UInt32)
  | returned (side : Side) (code : UInt32) (result : Except Fault Unit)
  | injected (result : Except Fault Unit)
  | noted (note : Note)

structure Part where
  link : ScriptedLink := {}
  rules : List Rule := []
  permits : Nat := 0
  call : Option Call := none

structure Scene where
  session : Session := {}
  parts : Sides Part := ⟨{}, {}⟩
  heedsShutdown : Bool := true
  -- How the latest write to a link ended.
  written : Except Fault Unit := .ok ()
  entries : List Entry := []

namespace Scene

def part (scene : Scene) (side : Side) : Part :=
  scene.parts.get side

def withPart (scene : Scene) (side : Side) (f : Part → Part) : Scene :=
  { scene with parts := scene.parts.modify side f }

def log (scene : Scene) (entry : Entry) : Scene :=
  { scene with entries := scene.entries ++ [entry] }

def write (scene : Scene) (side : Side) (channel : Channel) (bytes : Bytes) : Scene :=
  let (written, link) := (scene.part side).link.write channel
  let scene := { scene.withPart side fun part => { part with link } with written }
  match written with
  | .ok () => scene.log (.wrote side channel bytes)
  | .error _ => scene.log (.writeFailed side channel)

def act (scene : Scene) : Session.Effect → Scene
  | .takeEvents side => scene.log (.tookEvents side)
  | .resume side => scene.log (.resumed side)
  | .write side channel bytes => scene.write side channel bytes
  | .close side =>
    let scene := scene.withPart side fun part =>
      { part with link := { part.link with state := .closed }, call := none }
    scene.log (.closed side)
  | .dispatch side packet =>
    let scene := scene.withPart side fun part =>
      { part with call := some { packet, rest := actionsFor part.rules packet } }
    scene.log (.dispatched side packet)
  | .flush => scene
  | .note note => scene.log (.noted note)

def move (scene : Scene) (move : Session.Move) : Scene :=
  match scene.session.step move with
  | none => scene
  | some (effects, session) => effects.foldl act { scene with session }

def returnCall (scene : Scene) (side : Side) (packet : Packet) (result : Except Fault Unit) :
    Scene :=
  let scene := scene.withPart side fun part => { part with call := none }
  (scene.log (.returned side packet.code result)).move (.returned side result)

def continueCall (scene : Scene) (side : Side) (call : Call) : Option Scene :=
  let remember (scene : Scene) (call : Call) : Scene :=
    scene.withPart side fun part => { part with call := some call }
  let send (rest : List Action) (target : Side) (packet : Packet) : Option Scene :=
    let scene := (remember scene { call with rest }).move (.send side target packet)
    match scene.written with
    | .ok () => some scene
    | .error fault => some (scene.returnCall side call.packet (.error fault))
  if call.begun then
    match call.rest with
    | [] => some (scene.returnCall side call.packet (.ok ()))
    | .forward :: rest => send rest side.opposite call.packet
    | .forwardResized size :: rest => send rest side.opposite { call.packet with size }
    | .forwardAnyway :: rest =>
      some ((remember scene { call with rest }).move (.send side side.opposite call.packet))
    | .reply :: rest => send rest side call.packet
    | .send packet :: rest => send rest side.opposite packet
    | .sendBack packet :: rest => send rest side packet
    | .pause :: rest => some (remember scene { call with rest })
    | .gate :: rest =>
      match (scene.part side).permits with
      | 0 => none
      | permits + 1 =>
        let scene := scene.withPart side fun part => { part with permits }
        some (remember scene { call with rest })
    | .fail text :: _ => some (scene.returnCall side call.packet (.error ⟨.other, some text⟩))
  else some ((remember scene { call with begun := true }).log (.begun side call.packet.code))

def callStep (scene : Scene) (side : Side) : Option Scene := do
  guard (scene.session.polls side)
  scene.continueCall side (← (scene.part side).call)

def possible (scene : Scene) (move : Session.Move) : Option Scene := do
  let _ ← scene.session.step move
  return scene.move move

-- Nothing that is reported depends on the time of a chunk.
def noTime : Capture.Timestamp := .millis 0

def next (scene : Scene) : Option Scene :=
  match scene.session.phase with
  | .opening =>
    let answers := ⟨scene.parts.simulator.link.opening, scene.parts.client.link.opening⟩
    scene.possible (.start answers)
  | .forwarding .. => scene.possible (.forwarded scene.written)
  | .releasing .. => scene.possible .released
  | .ended _ => none
  | .relaying | .draining .. =>
    scene.callStep .simulator <|> scene.callStep .client <|> scene.possible .drain
      <|> scene.possible (.take .simulator noTime) <|> scene.possible (.take .client noTime)
      <|> scene.possible .shutdown

def patience (scene : Scene) : Nat :=
  16 + work .simulator + work .client
where
  work (side : Side) : Nat :=
    let half := scene.session.half side
    let part := scene.part side
    let bytes := half.stream.buffered + half.inbox.length
    let longest := (part.rules.map (·.actions.length)).foldl max 1
    let rest := match part.call with
      | some call => call.rest.length
      | none => 0
    2 * half.inbox.queued.length + rest + 2 + bytes / headerSize * (longest + 2)

def settle (scene : Scene) : Scene :=
  go scene.patience scene
where
  go : Nat → Scene → Scene
    | 0, scene => scene
    | more + 1, scene =>
      match scene.next with
      | some scene => go more scene
      | none => scene

def cue (scene : Scene) : Cue → Scene
  | .send side events => events.foldl (fun scene event => scene.move (.arrive side event)) scene
  | .hangUp side => scene.move (.hangUp side)
  | .release side => scene.withPart side fun part => { part with permits := part.permits + 1 }
  | .shutdown => if scene.heedsShutdown then scene.move .requestShutdown else scene
  | .inject side packet =>
    let scene := scene.write side .data packet.serialize
    scene.log (.injected scene.written)

end Scene

structure Report where
  entries : List Entry
  states : Sides Link.State
  -- Present in the report of the cue that ended the session.
  outcome : Option Outcome

def Scene.report (before after : Scene) : Report where
  entries := after.entries
  states := ⟨after.parts.simulator.link.state, after.parts.client.link.state⟩
  outcome := if before.session.outcome?.isSome then none else after.session.outcome?

def Scene.playCues (scene : Scene) : List Cue → List Report × Scene
  | [] => ([], scene)
  | cue :: cues =>
    let after := ({ scene with entries := [] }.cue cue).settle
    let (reports, last) := after.playCues cues
    (scene.report after :: reports, last)

def Scene.play (scene : Scene) (cues : List Cue) : List Report × Scene :=
  let started := scene.settle
  let (reports, last) := started.playCues cues
  (scene.report started :: reports, last)

end TpmRelay.Rehearsal
