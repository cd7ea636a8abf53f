import TpmRelay.Session.Basic

set_option autoImplicit false

namespace TpmRelay.Session

abbrev Progress := List Effect × Session

-- Calls in flight are dropped, and both links are closed, the simulator's first.
def conclude (session : Session) (outcome : Outcome) : Progress :=
  let drop (half : Half) : Half := { half with call := none }
  let halves := (session.halves.modify .simulator drop).modify .client drop
  ([.close .simulator], { session with halves, phase := .releasing .simulator outcome })

def fail (session : Session) (failure : Failure) : Progress :=
  session.conclude (.failed failure)

-- Starts a handler call for the next packet of a side, unless one is in flight.
def dispatch (session : Session) (side : Side) : Except Failure Progress :=
  if (session.half side).call.isSome then .ok ([], session)
  else match (session.half side).stream.extract with
    | (.malformed size, _) => .error (.framing side size)
    | (.incomplete, _) => .ok ([], session)
    | (.packet packet, stream) =>
      .ok ([.note (.dispatching side packet), .dispatch side packet],
        session.withHalf side fun half => { half with stream, call := some packet })

-- Before the session waits again, both sides get their next call.
def turn (session : Session) : Progress :=
  match session.dispatch .simulator with
  | .error failure => session.fail failure
  | .ok (first, session) =>
    match session.dispatch .client with
    | .error failure =>
      let (rest, session) := session.fail failure
      (first ++ rest, session)
    | .ok (second, session) => (first ++ second, { session with phase := .relaying })

def discarded (session : Session) (side : Side) : List Effect :=
  match (session.half side).stream.buffered with
  | 0 => []
  | count => [.note (.discarding side count)]

-- Empties the streams of the given sides in turn, as far as no call has to be waited for.
def drain (session : Session) (closed : Side) : List Side → Progress
  | [] => session.conclude (.exited (.closed closed))
  | side :: later =>
    match session.dispatch side with
    | .error failure => session.fail failure
    | .ok (effects, session) =>
      if (session.half side).call.isSome then
        (effects, { session with phase := .draining closed side })
      else
        let (rest, session') := session.drain closed later
        (effects ++ session.discarded side ++ rest, session')

def drainOrder : Side → List Side
  | .simulator => [.simulator, .client]
  | .client => [.client]

def openingCalls (answers : Sides Opening) : List (Effect × Except Link.Error Unit) :=
  [(.takeEvents .simulator, answers.simulator.events),
    (.takeEvents .client, answers.client.events),
    (.resume .simulator, answers.simulator.resumed),
    (.resume .client, answers.client.resumed)]

def attempt : List (Effect × Except Link.Error Unit) → List Effect × Except Link.Error Unit
  | [] => ([], .ok ())
  | (effect, .ok ()) :: calls =>
    let (effects, result) := attempt calls
    (effect :: effects, result)
  | (effect, .error error) :: _ => ([effect], .error error)

def start (session : Session) (answers : Sides Opening) : Progress :=
  match attempt (openingCalls answers) with
  | (effects, .error error) =>
    let (rest, session) := session.fail (.link error)
    (effects ++ rest, session)
  | (effects, .ok ()) =>
    let (rest, session) := session.turn
    (effects ++ .note .relaying :: rest, session)

def record (session : Session) (chunk : Capture.Chunk) : Progress :=
  match session.recording with
  | .active recorder =>
    match recorder.write chunk with
    | (.ok (), recorder) => ([], { session with recording := .active recorder })
    | (.error fault, recorder) =>
      ([.note (.captureFailed fault)], { session with recording := .abandoned recorder })
  | _ => ([], session)

-- A chunk is recorded first; then control bytes are forwarded and data bytes join the stream.
def receive (session : Session) (side : Side) (time : Capture.Timestamp) (channel : Channel)
    (bytes : Bytes) : Progress :=
  let direction : Direction := ⟨side, channel⟩
  let (recorded, session) := session.record { direction, time, payload := bytes }
  let effects := .note (.read direction bytes) :: recorded
  match channel with
  | .control =>
    (effects ++ [.write side.opposite .control bytes],
      { session with phase := .forwarding side bytes })
  | .data =>
    let ingest (half : Half) : Half := { half with stream := half.stream.ingest bytes }
    let (rest, session) := (session.withHalf side ingest).turn
    (effects ++ rest, session)

-- The end of the queue counts as a close.
def take (session : Session) (side : Side) (time : Capture.Timestamp) : Option Progress :=
  (session.half side).inbox.take.map fun (event, inbox) =>
    let session := session.withHalf side fun half => { half with inbox }
    match event with
    | some (.chunk channel bytes) => session.receive side time channel bytes
    | some .closed | none =>
      ([.note (.closed side)], { session with phase := .draining side .simulator })

-- After a call has returned, `next` goes on unless the call failed.
def complete (session : Session) (side : Side) (result : Except Fault Unit)
    (next : Session → Progress) : Progress :=
  let session := session.withHalf side fun half => { half with call := none }
  match result with
  | .ok () => next session
  | .error fault => session.fail (.handler side fault)

def finish (session : Session) (outcome : Outcome) : Progress :=
  let session := { session with phase := .ended outcome }
  match session.recording with
  | .active recorder =>
    let note := match recorder.finish with
      | .ok () => Note.captureFinished recorder.records
      | .error fault => .flushFailed fault
    ([.flush, .note note, .note (.ended outcome)], { session with recording := .finished recorder })
  | _ => ([.note (.ended outcome)], session)

def step (session : Session) (move : Move) : Option Progress :=
  match move, session.phase with
  | .arrive side event, _ =>
    some ([], session.withHalf side fun half => { half with inbox := half.inbox.put event })
  | .hangUp side, _ =>
    some ([], session.withHalf side fun half => { half with inbox := half.inbox.hangUp })
  | .requestShutdown, _ => some ([], { session with shutdownRequested := true })
  | .start answers, .opening => some (session.start answers)
  | .take side time, .relaying => session.take side time
  | .forwarded (.ok ()), .forwarding .. => some session.turn
  | .forwarded (.error fault), .forwarding source _ => some (session.fail (.forward source fault))
  -- A call may write to either side at any time, until it is dropped or returns.
  | .send caller target packet, _ =>
    if (session.half caller).call.isSome ∧ session.polls caller then
      some ([.write target .data packet.serialize], session)
    else none
  | .returned side result, .relaying =>
    if (session.half side).call.isSome then some (session.complete side result turn) else none
  | .returned side result, .draining closed current =>
    if side = current ∧ (session.half side).call.isSome then
      some (session.complete side result fun session => session.drain closed (drainOrder current))
    else none
  | .drain, .draining closed current =>
    if (session.half current).call.isNone then some (session.drain closed (drainOrder current))
    else none
  | .shutdown, .relaying | .shutdown, .draining .. =>
    if session.shutdownRequested then some (session.conclude (.exited .shutdown)) else none
  | .released, .releasing .simulator outcome =>
    some ([.close .client], { session with phase := .releasing .client outcome })
  | .released, .releasing .client outcome => some (session.finish outcome)
  | _, _ => none

def run (session : Session) : List Move → Option Progress
  | [] => some ([], session)
  | move :: moves => do
    let (effects, session) ← session.step move
    let (rest, session) ← session.run moves
    return (effects ++ rest, session)

end TpmRelay.Session
