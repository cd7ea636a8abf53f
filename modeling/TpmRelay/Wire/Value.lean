import TpmRelay.Wire.Scalar
import TpmRelay.Wire.Sink

set_option autoImplicit false

namespace TpmRelay.Wire

inductive Value where
  | scalar (scalar : Scalar)
  | raw (bytes : Bytes)
  | pair (first second : Value)
  deriving DecidableEq, Repr

namespace Value

def u16 (n : UInt16) : Value := scalar (.u16 n)

def u32 (n : UInt32) : Value := scalar (.u32 n)

def i32 (n : Int32) : Value := scalar (.i32 n)

def sequence (first : Value) : List Value → Value
  | [] => first
  | second :: rest => pair first (sequence second rest)

def encode : Value → Bytes
  | scalar s => s.encode
  | raw bytes => bytes
  | pair first second => first.encode ++ second.encode

def write : Value → Sink → Except Fault Unit × Sink
  | scalar s, sink => sink.write s.encode
  | raw bytes, sink => sink.write bytes
  | pair first second, sink =>
    match first.write sink with
    | (.ok (), sink) => second.write sink
    | failed => failed

end Value

end TpmRelay.Wire
