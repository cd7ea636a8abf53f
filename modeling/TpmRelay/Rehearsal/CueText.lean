import TpmRelay.Rehearsal.Program

set_option autoImplicit false

namespace TpmRelay.Rehearsal.Program

def byteOfHex? (high low : Char) : Option UInt8 := do
  return UInt8.ofNat ((← Numeral.digitValue 16 high) * 16 + (← Numeral.digitValue 16 low))

def bytesOfHex? : List Char → Option Bytes
  | [] => some []
  | high :: low :: rest => do
    return (← byteOfHex? high low) :: (← bytesOfHex? rest)
  | [_] => none

def hexOfBytes (bytes : Bytes) : String :=
  String.ofList (bytes.flatMap fun byte => Numeral.padded 2 16 byte.toNat)

def sideNamed? : String → Option Side
  | "simulator" => some .simulator
  | "client" => some .client
  | _ => none

def channelNamed? : String → Option Channel
  | "control" => some .control
  | "data" => some .data
  | _ => none

def words (line : String) : List String :=
  let blanks := line.toList.map fun c => if c.isWhitespace then ' ' else c
  ((Options.pieces ' ' blanks).filter (· ≠ [])).map String.ofList

def Cue.ofLine? (line : String) : Option Cue :=
  match words line with
  | ["establish", control, data] => some (.establish control data)
  | ["accept"] => some .accept
  | ["send", who, channel, hex] => do
    return .send (← sideNamed? who) (← channelNamed? channel) (← bytesOfHex? hex.toList)
  | ["read", who, channel] => do
    return .read (← sideNamed? who) (← channelNamed? channel) none
  | ["read", who, channel, count] => do
    let count ← Numeral.parse 10 4294967295 count.toList
    return .read (← sideNamed? who) (← channelNamed? channel) (some count)
  | ["close", who] => do
    return .close (← sideNamed? who)
  | ["interrupt"] => some .interrupt
  | _ => none

def Answer.text : Answer → String
  | nothing => "ok"
  | established accepted connected =>
    let both := (if accepted.control then 1 else 0) + (if accepted.data then 1 else 0)
    "accepted " ++ Numeral.decimal both ++ ", connected " ++ Numeral.decimal connected
  | read bytes ending =>
    let state := match ending with
      | .pending => "open"
      | .ended => "ended"
      | .reset => "reset"
    "read " ++ hexOfBytes bytes ++ " " ++ state

end TpmRelay.Rehearsal.Program
