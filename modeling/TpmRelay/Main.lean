import TpmRelay.CommandLine.Usage
import TpmRelay.CommandLine.Words
import TpmRelay.Rehearsal.CueText
import TpmRelay.Rehearsal.Surroundings

set_option autoImplicit false

open TpmRelay TpmRelay.Rehearsal

partial def follow (input : IO.FS.Stream) (program : Program) : IO Program := do
  let line ← input.getLine
  if line.isEmpty then return program
  match Program.Cue.ofLine? line with
  | none =>
    IO.eprintln "not a cue"
    follow input program
  | some cue =>
    let (answer, program) := program.perform cue
    IO.println answer.text
    follow input program

def main (words : List String) : IO UInt32 := do
  match CommandLine.read words with
  | .error error =>
    if error.exitCode = 0 then IO.println error.message else IO.eprintln error.message
    return UInt32.ofNat error.exitCode
  | .ok arguments =>
    let (network, acceptors) := Program.surroundings arguments
    let millis ← IO.monoMsNow
    let program := Program.start arguments network acceptors (fun _ => .program) millis
    let last ← follow (← IO.getStdin) program.settle
    return UInt32.ofNat ((last.exitCode).getD 1)
