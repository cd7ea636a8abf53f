import TpmRelay.Link.Machine

set_option autoImplicit false

namespace TpmRelay.Link

abbrev Progress := List Effect × Link

-- A reader hands on at most this many bytes at once.
def chunkLimit : Nat := 16384

def unconnected (channel : Channel) : Fault :=
  ⟨.notConnected, some ("The " ++ channel.name ++ " channel is not connected")⟩

def aborted (channel : Channel) : Fault :=
  ⟨.connectionAborted, some ("The " ++ channel.name ++ " channel was closed")⟩

def dropBoth (stream : Stream) : List Effect :=
  [.drop stream .reader, .drop stream .writer]

def unlistenAll (listeners : List Listener) : List Effect :=
  listeners.map .unlisten

def enqueue (link : Link) (event : Event) : Progress :=
  ([.queue event], { link with queued := link.queued ++ [event] })

-- The close of a link is told once.
def notify (link : Link) : Progress :=
  if link.notified then ([], link) else { link with notified := true }.enqueue .closed

def beginEstablishing (link : Link) : Except Error Link :=
  match link.state with
  | .idle => .ok { link with state := .establishing ⟨false, false⟩ }
  | .closed => .error .closed
  | other => .error (.alreadyStarted other)

def fail (link : Link) : Link :=
  { link with state := link.state.fail }

def leaveGate (link : Link) : Link :=
  match link.role with
  | .dialing => link
  | .waiting => { link with gate := link.gate.tail }

def settleCall (link : Link) (call : Nat) (result : Except Error Unit) : Progress :=
  ([.established call result], { link.leaveGate with establishing := .absent })

def withLock (link : Link) (channel : Channel) (holders : List Holder) : Link :=
  { link with locks := link.locks.set channel holders }

def popLock (link : Link) (channel : Channel) : Link :=
  { link with locks := link.locks.modify channel List.tail }

def pushLock (link : Link) (channel : Channel) (holder : Holder) : Link :=
  { link with locks := link.locks.modify channel (· ++ [holder]) }

def removeStore (link : Link) (channel : Channel) : Link :=
  { link with locks := link.locks.modify channel (List.filter (· ≠ .store)) }

def connect (link : Link) (call : Nat) : Progress :=
  match link.beginEstablishing with
  | .error error => ([.established call (.error error)], link)
  | .ok link => ([], { link with establishing := .making call none ⟨none, none⟩ })

def turn (link : Link) (call : Nat) (frontend : String) : Progress :=
  match link.beginEstablishing with
  | .error error => link.settleCall call (.error error)
  | .ok link => ([], { link with establishing := .binding call frontend ⟨none, none⟩ })

def launch (link : Link) (call : Nat) (frontend : String) (listeners : Channels Listener) :
    Launching → Progress
  | .unplaced fault =>
    let (effects, link) := link.fail.settleCall call (.error (.transport fault))
    (unlistenAll listeners.toList ++ effects, link)
  | .refused fault =>
    let (effects, link) := link.fail.settleCall call (.error (.helper fault))
    (.launch (task listeners) (.error fault) :: unlistenAll listeners.toList ++ effects, link)
  | .started =>
    ([.launch (task listeners) (.ok ())],
      { link with helper := true, establishing := .making call (some listeners) ⟨none, none⟩ })
where
  task (listeners : Channels Listener) : HelperTask :=
    { control := listeners.control.endpoint, data := listeners.data.endpoint, frontend }

def bind (link : Link) (call : Nat) (frontend : String) (bound : Channels (Option Listener))
    (channel : Channel) (listener : Listener) (launching : Launching) : Progress :=
  let bound := bound.set channel (some listener)
  match bound.control, bound.data with
  | some control, some data => link.launch call frontend ⟨control, data⟩ launching
  | _, _ => ([], { link with establishing := .binding call frontend bound })

def unbind (link : Link) (call : Nat) (bound : Channels (Option Listener)) (fault : Fault) :
    Progress :=
  let (effects, link) := link.fail.settleCall call (.error (.transport fault))
  (unlistenAll bound.present ++ effects, link)

-- A waiting link shuts down what it accepted; a dialing link just drops what it connected.
def giveUp (link : Link) (call : Nat) (listeners : Option (Channels Listener))
    (made : Channels (Option Stream)) (error : Error) : Progress :=
  let link := link.fail
  match listeners, made.present with
  | none, streams =>
    let (effects, link) := link.settleCall call (.error error)
    (streams.flatMap dropBoth ++ effects, link)
  | some listeners, [] =>
    let (effects, link) := link.settleCall call (.error error)
    (unlistenAll listeners.toList ++ effects, link)
  | some listeners, streams =>
    (unlistenAll listeners.toList, { link with establishing := .abandoning call error streams })

def connected (link : Link) (call : Nat) (listeners : Option (Channels Listener))
    (made : Channels (Option Stream)) (channel : Channel) (stream : Stream) : Link :=
  let link := { link with state := link.state.markMade channel }
  let made := made.set channel (some stream)
  match made.control, made.data with
  | some control, some data =>
    -- From here on the call heeds no close.
    { link with listeners, establishing := .storing call .control ⟨control, data⟩ }
  | _, _ => { link with establishing := .making call listeners made }

-- Whether the link is usable is decided once both writers are stored.
def store (link : Link) (call : Nat) (channel : Channel) (made : Channels Stream) : Progress :=
  let writers := link.writers.set channel (some (made.get channel))
  let link := { link.popLock channel with writers }
  match channel with
  | .control => ([], { link with establishing := .storing call .data made })
  | .data =>
    let link := { link with paused := some made }
    match link.state with
    | .establishing ⟨true, true⟩ => { link with state := .ready }.settleCall call (.ok ())
    | .closed => link.settleCall call (.error .closed)
    | other => link.settleCall call (.error (.alreadyStarted other))

def abandon (link : Link) (call : Nat) (error : Error) (result : Except Fault Unit) :
    List Stream → Progress
  | [] => link.settleCall call (.error error)
  | stream :: left =>
    let shut := match result with
      | .ok () => [Effect.shut stream]
      | .error _ => []
    let (effects, link) := match left with
      | [] => link.settleCall call (.error error)
      | _ => ([], { link with establishing := .abandoning call error left })
    (shut ++ dropBoth stream ++ effects, link)

def cancel (link : Link) (call : Nat) : Option Progress :=
  let gone (link : Link) : Link := { link.leaveGate with establishing := .absent }
  if link.establishing.owner? = some call then
    match link.establishing with
    | .absent => none
    | .binding _ _ bound => some (unlistenAll bound.present, gone link)
    | .making _ listeners made =>
      some (made.present.flatMap dropBoth ++ unlistenAll ((listeners.map Channels.toList).getD []),
        gone link)
    | .storing _ .control made =>
      some (dropBoth made.control ++ dropBoth made.data, (gone link).removeStore .control)
    | .storing _ .data made =>
      -- The control writer is stored by now and stays.
      some (.drop made.control .reader :: dropBoth made.data, (gone link).removeStore .data)
    | .abandoning _ _ left => some (left.flatMap dropBoth, gone link)
  else
    let isCall (waiter : Waiter) : Bool := match waiter with
      | .listen other _ => other = call
      | .close => false
    if link.gate.any isCall then some ([], { link with gate := link.gate.filter (!isCall ·) })
    else none

def takeEvents (link : Link) : Bool × Link :=
  (!link.eventsTaken, { link with eventsTaken := true })

def resume (link : Link) : Except Error Unit × Link :=
  match link.state, link.paused with
  | .ready, none => (.ok (), link)
  | .ready, some streams =>
    let readers : Channels Reader := ⟨.running streams.control, .running streams.data⟩
    (.ok (), { link with paused := none, readers, openReaders := 2 })
  | .closed, _ => (.error .closed, link)
  | _, _ => (.error .notConnected, link)

-- The link counts as closed by its peer when the last reader ends.
def readEnd (link : Link) (channel : Channel) (stream : Stream) : Progress :=
  let link := { link with
    readers := link.readers.set channel .finished
    openReaders := link.openReaders - 1 }
  let (effects, link) :=
    if link.openReaders = 0 then { link with state := .closed }.notify else ([], link)
  (effects ++ [.drop stream .reader], link)

def finishWrite (link : Link) (channel : Channel) (call : Nat) (result : Except Fault Unit) :
    Progress :=
  ([.wrote call result], link.popLock channel)

def withoutCall (call : Nat) (holders : List Holder) : List Holder :=
  holders.filter fun holder => match holder with
    | .write other .. => other ≠ call
    | .store | .release => true

def hasCall (link : Link) (channel : Channel) (call : Nat) : Bool :=
  (link.locks.get channel).any fun holder => match holder with
    | .write other .. => other = call
    | .store | .release => false

def abortReader : Reader → List Effect × Reader
  | .running stream => ([.drop stream .reader], .aborted)
  | other => ([], other)

-- The part of a close that begins when no establishing call holds anything any more.
def release (link : Link) : Progress :=
  let (control, controlReader) := abortReader link.readers.control
  let (data, dataReader) := abortReader link.readers.data
  let paused := match link.paused with
    | some streams => [Effect.drop streams.control .reader, .drop streams.data .reader]
    | none => []
  let unlistened := unlistenAll ((link.listeners.map Channels.toList).getD [])
  let link := { link with
    listeners := none
    readers := ⟨controlReader, dataReader⟩
    paused := none
    closer := .locking .control }
  (unlistened ++ control ++ data ++ paused, link)

def closeLast (link : Link) : Progress :=
  let (told, link) := { link with closer := .returned }.notify
  (told ++ [.closed], link)

-- The helper is told to stop after both channels are shut down; the close is told last.
def closeNext (link : Link) : Channel → Progress
  | .control => ([], { link with closer := .locking .data })
  | .data =>
    if link.helper then ([.terminate], { link with helper := false, closer := .stopping })
    else link.closeLast

def close (link : Link) : Progress :=
  if link.closing then ([.closed], link)
  else
    let link := { link with closing := true, state := .closed }
    match link.role with
    -- A call that is still storing what it has connected is not waited for.
    | .dialing => link.release
    | .waiting => ([], { link with closer := .waiting })

def closeLock (link : Link) (channel : Channel) : Progress :=
  match link.writers.get channel with
  | none => (link.popLock channel).closeNext channel
  | some stream =>
    ([], { link with
      writers := link.writers.set channel none
      closer := .shutting channel stream })

-- A shutdown that fails does not stop the close.
def closeShut (link : Link) (channel : Channel) (stream : Stream) (result : Except Fault Unit) :
    Progress :=
  let shut := match result with
    | .ok () => [Effect.shut stream]
    | .error _ => []
  let (effects, link) := (link.popLock channel).closeNext channel
  (shut ++ [.drop stream .writer] ++ effects, link)

def stepEstablishing (link : Link) : Move → Option Progress
  | .connect call => if link.role = .dialing then some (link.connect call) else none
  | .listen call frontend =>
    if link.role = .waiting then
      some ([], { link with gate := link.gate ++ [.listen call frontend] })
    else none
  | .turn =>
    match link.gate, link.establishing with
    | .listen call frontend :: _, .absent => some (link.turn call frontend)
    | _, _ => none
  | .bound channel listener launching =>
    match link.establishing with
    | .binding call frontend bound =>
      if (bound.get channel).isNone then
        some (link.bind call frontend bound channel listener launching)
      else none
    | _ => none
  | .unbound channel fault =>
    match link.establishing with
    | .binding call _ bound =>
      if (bound.get channel).isNone then some (link.unbind call bound fault) else none
    | _ => none
  | .connected channel stream =>
    match link.establishing with
    | .making call listeners made =>
      if (made.get channel).isNone ∧ !link.closing then
        some ([], link.connected call listeners made channel stream)
      else none
    | _ => none
  | .refused channel fault =>
    match link.establishing with
    | .making call listeners made =>
      if (made.get channel).isNone ∧ !link.closing then
        some (link.giveUp call listeners made (.transport fault))
      else none
    | _ => none
  | .notice =>
    match link.establishing with
    | .making call listeners made =>
      if link.closing then some (link.giveUp call listeners made .closed) else none
    | _ => none
  | .queueUp =>
    match link.establishing with
    | .storing _ channel _ =>
      if .store ∈ link.locks.get channel then none else some ([], link.pushLock channel .store)
    | _ => none
  | .store =>
    match link.establishing with
    | .storing call channel made =>
      if (link.locks.get channel).head? = some .store then some (link.store call channel made)
      else none
    | _ => none
  | .abandon result =>
    match link.establishing with
    | .abandoning call error left => some (link.abandon call error result left)
    | _ => none
  | .cancel call => link.cancel call
  | _ => none

def stepWriting (link : Link) : Move → Option Progress
  | .write call channel bytes => some ([], link.pushLock channel (.write call bytes none))
  | .begin channel =>
    match link.closing, link.locks.get channel with
    | false, .write call bytes none :: rest =>
      match link.writers.get channel with
      | none => some (link.finishWrite channel call (.error (unconnected channel)))
      | some _ =>
        some ([], link.withLock channel (.write call bytes (some bytes) :: rest))
    | _, _ => none
  | .put channel count =>
    match link.closing, link.locks.get channel, link.writers.get channel with
    | false, .write call bytes (some left) :: rest, some stream =>
      let sent := left.take count
      if 0 < count ∧ sent.length = count then
        some ([.put stream sent],
          link.withLock channel (.write call bytes (some (left.drop count)) :: rest))
      else none
    | _, _, _ => none
  | .putFails channel fault =>
    match link.closing, link.locks.get channel with
    | false, .write call _ (some (_ :: _)) :: _ =>
      some (link.finishWrite channel call (.error fault))
    | _, _ => none
  | .flush channel result =>
    match link.closing, link.locks.get channel with
    | false, .write call _ (some []) :: _ => some (link.finishWrite channel call result)
    | _, _ => none
  | .abort channel call =>
    if link.closing ∧ link.hasCall channel call then
      some ([.wrote call (.error (aborted channel))],
        { link with locks := link.locks.modify channel (withoutCall call) })
    else none
  | .forget channel call =>
    if link.hasCall channel call then
      some ([], { link with locks := link.locks.modify channel (withoutCall call) })
    else none
  | _ => none

def stepReading (link : Link) : Move → Option Progress
  | .takeEvents =>
    let (given, link) := link.takeEvents
    some ([.gaveEvents given], link)
  | .resume =>
    let (result, link) := link.resume
    some ([.resumed result], link)
  | .read channel bytes =>
    match link.readers.get channel with
    | .running _ =>
      if bytes ≠ [] ∧ bytes.length ≤ chunkLimit then some (link.enqueue (.chunk channel bytes))
      else none
    | _ => none
  | .readEnd channel =>
    match link.readers.get channel with
    | .running stream => some (link.readEnd channel stream)
    | _ => none
  | _ => none

def stepClosing (link : Link) : Move → Option Progress
  | .close => some link.close
  | .closeQueueUp =>
    match link.closer with
    | .waiting =>
      if .close ∈ link.gate then none else some ([], { link with gate := link.gate ++ [.close] })
    | .locking channel =>
      if .release ∈ link.locks.get channel then none
      else some ([], link.pushLock channel .release)
    | _ => none
  | .closeAlone =>
    match link.closer, link.gate with
    | .waiting, .close :: gate => some { link with gate }.release
    | _, _ => none
  | .closeLock =>
    match link.closer with
    | .locking channel =>
      if (link.locks.get channel).head? = some .release then some (link.closeLock channel) else none
    | _ => none
  | .closeShut result =>
    match link.closer with
    | .shutting channel stream => some (link.closeShut channel stream result)
    | _ => none
  | .stopped _ =>
    match link.closer with
    | .stopping => some link.closeLast
    | _ => none
  | _ => none

-- Wherever a call may have to wait, any other move may come next.
def step (link : Link) (move : Move) : Option Progress :=
  match move with
  | .connect _ | .listen .. | .turn | .bound .. | .unbound .. | .connected .. | .refused ..
  | .notice | .queueUp | .store | .abandon _ | .cancel _ => link.stepEstablishing move
  | .write .. | .begin _ | .put .. | .putFails .. | .flush .. | .abort .. | .forget .. =>
    link.stepWriting move
  | .takeEvents | .resume | .read .. | .readEnd _ => link.stepReading move
  | .close | .closeQueueUp | .closeAlone | .closeLock | .closeShut _ | .stopped _ =>
    link.stepClosing move

def run (link : Link) : List Move → Option Progress
  | [] => some ([], link)
  | move :: moves => do
    let (effects, link) ← link.step move
    let (rest, link) ← link.run moves
    return (effects ++ rest, link)

end TpmRelay.Link
