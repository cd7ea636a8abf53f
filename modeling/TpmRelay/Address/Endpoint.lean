import TpmRelay.Address.Ip
import TpmRelay.Address.Options

set_option autoImplicit false

namespace TpmRelay

inductive AddressError where
  | unknownKind (text : String)
  | unknownType (type : String)
  | missingPath (text : String)
  | badPort (text value : String)
  | badAddress (text value : String)
  | badMode (text value : String)
  deriving DecidableEq, Repr

def AddressError.message : AddressError → String
  | unknownKind text => s!"Unknown endpoint kind in \"{text}\", expected tcp: or unix:"
  | unknownType type => s!"Unknown swtpm socket type \"{type}\", expected tcp or unixio"
  | missingPath text => s!"Missing path in unix endpoint \"{text}\""
  | badPort text value => s!"Invalid port \"{value}\" in endpoint \"{text}\""
  | badAddress text value => s!"Invalid IP address \"{value}\" in endpoint \"{text}\""
  | badMode text value => s!"Invalid octal mode \"{value}\" in endpoint \"{text}\""

inductive Transport where
  | tcp
  | unix
  deriving DecidableEq, Repr

structure Endpoint where
  transport : Transport
  -- The text of an IP address or a path.
  address : String
  port : Option UInt16 := none
  -- The permissions of a socket file once it is bound.
  mode : Option UInt32 := none
  deriving DecidableEq, Repr

namespace Endpoint

def defaultIp : Ip := .v4 .localhost

def tcp (ip : Ip) (port : UInt16) : Endpoint :=
  { transport := .tcp, address := ip.text, port := some port }

def unix (path : String) : Endpoint :=
  { transport := .unix, address := path }

def ephemeral : Endpoint := tcp defaultIp 0

def withMode (endpoint : Endpoint) (mode : UInt32) : Endpoint :=
  { endpoint with mode := some mode }

def socketAddress (endpoint : Endpoint) : Option (Ip × UInt16) :=
  match endpoint.transport with
  | .tcp => (Ip.parse endpoint.address).map (·, endpoint.port.getD 0)
  | .unix => none

def text (endpoint : Endpoint) : String :=
  match endpoint.transport with
  | .tcp =>
    "tcp:addr=" ++ endpoint.address ++ ",port=" ++ Numeral.decimal (endpoint.port.getD 0).toNat
  | .unix =>
    "unix:path=" ++ endpoint.address ++
      match endpoint.mode with
      | some mode => ",mode=" ++ Numeral.octal mode.toNat
      | none => ""

def parseIp (text value : String) : Except AddressError Ip :=
  match Ip.parse value with
  | some ip => .ok ip
  | none => .error (.badAddress text value)

def parsePort (text value : String) : Except AddressError UInt16 :=
  match Numeral.parse 10 65535 value.toList with
  | some n => .ok (UInt16.ofNat n)
  | none => .error (.badPort text value)

def parseMode (text value : String) : Except AddressError UInt32 :=
  match Numeral.parse 8 0o7777 value.toList with
  | some n => .ok (UInt32.ofNat n)
  | none => .error (.badMode text value)

structure TcpSettings where
  ip : Ip := defaultIp
  port : UInt16 := 0

def TcpSettings.apply (text : String) (seen : TcpSettings) (setting : Setting) :
    Except AddressError TcpSettings :=
  match setting.key with
  | "addr" => (parseIp text setting.value).map fun ip => { seen with ip }
  | "port" => (parsePort text setting.value).map fun port => { seen with port }
  | _ => .ok seen

structure UnixSettings where
  path : Option String := none
  mode : Option UInt32 := none

def UnixSettings.apply (text : String) (seen : UnixSettings) (setting : Setting) :
    Except AddressError UnixSettings :=
  match setting.key with
  | "path" => .ok (if setting.value = "" then seen else { seen with path := some setting.value })
  | "mode" => (parseMode text setting.value).map fun mode => { seen with mode := some mode }
  | _ => .ok seen

def parseTcp (text : String) (options : List Char) : Except AddressError Endpoint := do
  let seen ← (Options.settings options).foldlM (TcpSettings.apply text) {}
  return tcp seen.ip seen.port

def parseUnix (text : String) (options : List Char) : Except AddressError Endpoint := do
  let seen ← (Options.settings options).foldlM (UnixSettings.apply text) {}
  match seen.path with
  | some path => return { unix path with mode := seen.mode }
  | none => throw (.missingPath text)

def parseKinded (text : String) : Except AddressError Endpoint :=
  match "tcp:".toList.isPrefixOf? text.toList with
  | some options => parseTcp text options
  | none =>
    match "unix:".toList.isPrefixOf? text.toList with
    | some options => parseUnix text options
    | none => .error (.unknownKind text)

structure SwtpmSettings where
  transport : Option Transport := none
  address : Option String := none
  port : UInt16 := 0
  mode : Option UInt32 := none

def SwtpmSettings.apply (text : String) (seen : SwtpmSettings) (setting : Setting) :
    Except AddressError SwtpmSettings :=
  match setting.key with
  | "type" =>
    match setting.value with
    | "tcp" => .ok { seen with transport := some .tcp }
    | "unixio" => .ok { seen with transport := some .unix }
    | other => .error (.unknownType other)
  | "addr" | "path" => .ok { seen with address := some setting.value }
  | "port" => (parsePort text setting.value).map fun port => { seen with port }
  | "mode" => (parseMode text setting.value).map fun mode => { seen with mode := some mode }
  | _ => .ok seen

def parseSwtpm (text : String) : Except AddressError Endpoint := do
  let seen ← (Options.settings text.toList).foldlM (SwtpmSettings.apply text) {}
  match seen.transport with
  | some .tcp =>
    let ip ← match seen.address with
      | some value => parseIp text value
      | none => pure defaultIp
    return tcp ip seen.port
  | some .unix =>
    match seen.address.filter (· ≠ "") with
    | some path => return { unix path with mode := seen.mode }
    | none => throw (.missingPath text)
  | none => throw (.unknownKind text)

def hasKind (text : String) : Bool :=
  "tcp:".toList.isPrefixOf text.toList || "unix:".toList.isPrefixOf text.toList

def parse (text : String) : Except AddressError Endpoint :=
  if hasKind text then parseKinded text
  else if (Options.settings text.toList).any (·.key = "type") then parseSwtpm text
  else .error (.unknownKind text)

end Endpoint

end TpmRelay
