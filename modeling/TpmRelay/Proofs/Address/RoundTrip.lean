import TpmRelay.Proofs.Address.Grammar
import TpmRelay.Proofs.Address.IpText

set_option autoImplicit false

namespace TpmRelay.Endpoint

open Options

variable {text : String} {options : List Char} {endpoint : Endpoint}

def WellFormed (endpoint : Endpoint) : Prop :=
  match endpoint.transport with
  | .tcp =>
    (∃ ip : Ip, endpoint.address = ip.text) ∧ (∃ port, endpoint.port = some port) ∧
      endpoint.mode = none
  | .unix =>
    endpoint.address ≠ "" ∧ ',' ∉ endpoint.address.toList ∧ endpoint.port = none ∧
      ∀ mode ∈ endpoint.mode, mode.toNat ≤ 0o7777

theorem wellFormed_tcp (ip : Ip) (port : UInt16) : (tcp ip port).WellFormed :=
  ⟨⟨ip, rfl⟩, ⟨port, rfl⟩, rfl⟩

section Given

theorem wellFormed_unix {path : String} {mode : Option UInt32} {keys modes : List String}
    (listed : path ∈ values keys (settings options)) (some' : path ≠ "")
    (read : LastReads ReadsMode (values modes (settings options)) none mode) :
    { unix path with mode : Endpoint }.WellFormed := by
  refine ⟨some', ?_, rfl, ?_⟩
  next =>
    obtain ⟨put, member, rfl⟩ := List.mem_map.mp listed
    exact comma_not_mem_value (List.mem_of_mem_filter member)
  next =>
    rintro found rfl
    rw [LastReads] at read
    split at read
    next => contradiction
    next =>
      obtain ⟨mode, ⟨small, -⟩, same⟩ := read
      rwa [Option.some.inj same]

theorem wellFormed_of_parseTcp (read : parseTcp text options = .ok endpoint) :
    endpoint.WellFormed := by
  obtain ⟨ip, port, rfl, -⟩ := (parseTcp_decides text options).given endpoint read
  apply wellFormed_tcp

theorem wellFormed_of_parseUnix (read : parseUnix text options = .ok endpoint) :
    endpoint.WellFormed := by
  obtain ⟨path, mode, rfl, found, modes⟩ := (parseUnix_decides text options).given endpoint read
  obtain ⟨listed, some'⟩ := List.mem_filter.mp (List.mem_of_getLast? found)
  exact wellFormed_unix listed (of_decide_eq_true some') modes

theorem wellFormed_of_parseSwtpm (read : parseSwtpm text = .ok endpoint) :
    endpoint.WellFormed := by
  have decided := parseSwtpm_decides text
  obtain ⟨-, -, -, -, -, complete⟩ := decided.accepted.mp ⟨endpoint, read⟩
  rcases decided.given endpoint read with
    ⟨-, ip, port, rfl, -⟩ | ⟨named, path, mode, rfl, found, modes⟩
  next => apply wellFormed_tcp
  next =>
    obtain ⟨other, last, some'⟩ := complete named
    obtain rfl : path = other := Option.some.inj (found.symm.trans last)
    exact wellFormed_unix (List.mem_of_getLast? found) some' modes

theorem wellFormed_of_parseKinded (read : parseKinded text = .ok endpoint) :
    endpoint.WellFormed := by
  rw [parseKinded] at read
  split at read
  next => exact wellFormed_of_parseTcp read
  next =>
    split at read
    next => exact wellFormed_of_parseUnix read
    next => contradiction

theorem wellFormed_of_parse (read : parse text = .ok endpoint) : endpoint.WellFormed := by
  rw [parse] at read
  split at read
  next => exact wellFormed_of_parseKinded read
  next =>
    split at read
    next => exact wellFormed_of_parseSwtpm read
    next => contradiction

end Given

section Text

theorem denotes_digits {radix : Nat} (base : 2 ≤ radix) (low : radix ≤ 16) (n : Nat) :
    Numeral.Denotes radix (Numeral.digits radix n) n :=
  (Numeral.parse_eq_some.mp (Numeral.parse_digits base low le_rfl)).2

theorem comma_not_mem_digits {radix : Nat} (base : 2 ≤ radix) (low : radix ≤ 16) (n : Nat) :
    ',' ∉ Numeral.digits radix n :=
  Numeral.not_mem_digits base low (Numeral.not_isDigit_of_le low (by decide))

theorem parse_text_tcp (ip : Ip) (port : UInt16) :
    parse (tcp ip port).text = .ok (tcp ip port) := by
  have printed : (tcp ip port).text =
      "tcp:" ++ ("addr" ++ "=" ++ ip.text ++ "," ++
        ("port" ++ "=" ++ Numeral.decimal port.toNat)) := by
    simp [text, tcp, ← String.toList_inj]
  have address : ',' ∉ "addr".toList ++ ip.text.toList := by
    have plain := ip.not_mem_text (c := ',') (by decide) (by decide) (by decide)
    simp [plain]
  have number : ',' ∉ "port".toList ++ (Numeral.decimal port.toNat).toList := by
    have plain := comma_not_mem_digits (show 2 ≤ 10 by decide) (by decide) port.toNat
    simp [Numeral.decimal, plain]
  have read (text : String) : parsePort text (Numeral.decimal port.toNat) = .ok port := by
    rw [parsePort_eq_ok, IsPort, Numeral.decimal, String.toList_ofList]
    exact denotes_digits (by decide) (by decide) port.toNat
  rw [printed, parse_tcp, parseTcp, settings_and, settings_single (by decide) address,
    settings_single (by decide) number]
  simp [TcpSettings.apply, parseIp, Ip.parse_text, read]

theorem parse_text_unix {path : String} {mode : Option UInt32} (some' : path ≠ "")
    (plain : ',' ∉ path.toList) (small : ∀ found ∈ mode, found.toNat ≤ 0o7777) :
    parse { unix path with mode : Endpoint }.text = .ok { unix path with mode } := by
  have whole : ',' ∉ "path".toList ++ path.toList := by
    simp [plain]
  cases mode with
  | none =>
    have printed : { unix path with mode := none : Endpoint }.text =
        "unix:" ++ ("path" ++ "=" ++ path) := by
      simp [text, unix, ← String.toList_inj]
    rw [printed, parse_unix, parseUnix, settings_single (by decide) whole]
    simp [UnixSettings.apply, some']
  | some mode =>
    have printed : { unix path with mode := some mode : Endpoint }.text =
        "unix:" ++ ("path" ++ "=" ++ path ++ "," ++
          ("mode" ++ "=" ++ Numeral.octal mode.toNat)) := by
      simp [text, unix, ← String.toList_inj]
    have number : ',' ∉ "mode".toList ++ (Numeral.octal mode.toNat).toList := by
      have plain := comma_not_mem_digits (show 2 ≤ 8 by decide) (by decide) mode.toNat
      simp [Numeral.octal, plain]
    have read (text : String) : parseMode text (Numeral.octal mode.toNat) = .ok mode := by
      rw [parseMode_eq_ok, IsMode, Numeral.octal, String.toList_ofList]
      exact ⟨small mode rfl, denotes_digits (by decide) (by decide) mode.toNat⟩
    rw [printed, parse_unix, parseUnix, settings_and, settings_single (by decide) whole,
      settings_single (by decide) number]
    simp [UnixSettings.apply, some', read]

theorem parse_text (wellFormed : endpoint.WellFormed) : parse endpoint.text = .ok endpoint := by
  rcases endpoint with ⟨tcp | unix, address, port, mode⟩
  next =>
    obtain ⟨⟨ip, rfl⟩, ⟨port, rfl⟩, rfl⟩ := wellFormed
    exact parse_text_tcp ip port
  next =>
    obtain ⟨some', plain, rfl, small⟩ := wellFormed
    exact parse_text_unix some' plain small

end Text

theorem text_reads_back :
    (∀ endpoint : Endpoint, parse endpoint.text = .ok endpoint ↔ endpoint.WellFormed) ∧
    (∀ text endpoint,
      parse text = .ok endpoint ∨ parseKinded text = .ok endpoint ∨
          parseSwtpm text = .ok endpoint →
        endpoint.WellFormed ∧ parse endpoint.text = .ok endpoint) ∧
    ∀ endpoint : Endpoint, endpoint.WellFormed →
      (endpoint.socketAddress.isSome ↔ endpoint.transport = .tcp) ∧
        ∀ ip port, endpoint.socketAddress = some (ip, port) →
          endpoint.address = ip.text ∧ endpoint.port = some port := by
  refine ⟨fun endpoint => ⟨wellFormed_of_parse, parse_text⟩, ?_, ?_⟩
  next =>
    intro text endpoint read
    have wellFormed : endpoint.WellFormed := by
      rcases read with read | read | read
      next => exact wellFormed_of_parse read
      next => exact wellFormed_of_parseKinded read
      next => exact wellFormed_of_parseSwtpm read
    exact ⟨wellFormed, parse_text wellFormed⟩
  next =>
    rintro ⟨tcp | unix, address, port, mode⟩ wellFormed
    next =>
      obtain ⟨⟨ip, rfl⟩, ⟨port, rfl⟩, rfl⟩ := wellFormed
      simp +contextual [socketAddress, Ip.parse_text]
    next => simp [socketAddress]

theorem text_reads_back_from_swtpm :
    let endpoint := { unix "/run/a=b" with mode := some 0o640 : Endpoint }
    parse "type=unixio,mode=+0640,path=/run/a=b,," = .ok endpoint ∧ endpoint.WellFormed ∧
      parse endpoint.text = .ok endpoint ∧ endpoint.socketAddress = none := by
  intro endpoint
  have read : parse "type=unixio,mode=+0640,path=/run/a=b,," = .ok endpoint := rfl
  obtain ⟨wellFormed, again⟩ := text_reads_back.2.1 _ endpoint (.inl read)
  exact ⟨read, wellFormed, again, rfl⟩

end TpmRelay.Endpoint
