import TpmRelay.Address.Endpoint
import TpmRelay.Proofs.Folding
import TpmRelay.Proofs.Numeral

set_option autoImplicit false

namespace TpmRelay

def AddressError.about (text : String) : AddressError → AddressError
  | unknownKind _ => unknownKind text
  | unknownType type => unknownType type
  | missingPath _ => missingPath text
  | badPort _ value => badPort text value
  | badAddress _ value => badAddress text value
  | badMode _ value => badMode text value

namespace Options

def values (keys : List String) (settings : List Setting) : List String :=
  (settings.filter (·.key ∈ keys)).map (·.value)

section Values

variable {keys : List String} {settings : List Setting}

theorem values_cons (put : Setting) :
    values keys (put :: settings) = if put.key ∈ keys then put.value :: values keys settings
      else values keys settings := by
  by_cases heeded : put.key ∈ keys <;> simp [values, heeded]

theorem values_of_only {known : List String} (only : ∀ put ∈ settings, put.key ∈ known) :
    values keys settings = values (keys.filter (· ∈ known)) settings := by
  rw [values, values, List.filter_congr]
  intro put member
  simp [only put member]

end Values

end Options

namespace Endpoint

def IsPort (value : String) (port : UInt16) : Prop :=
  Numeral.Denotes 10 value.toList port.toNat

def IsMode (value : String) (mode : UInt32) : Prop :=
  mode.toNat ≤ 0o7777 ∧ Numeral.Denotes 8 value.toList mode.toNat

def ReadsMode (value : String) (mode : Option UInt32) : Prop :=
  ∃ found, IsMode value found ∧ mode = some found

def Names (value : String) (transport : Option Transport) : Prop :=
  value = "tcp" ∧ transport = some .tcp ∨ value = "unixio" ∧ transport = some .unix

-- What is wrong with a setting by itself.
def Offends (text : String) (put : Setting) (error : AddressError) : Prop :=
  match put.key with
  | "type" => (put.value ≠ "tcp" ∧ put.value ≠ "unixio") ∧ .unknownType put.value = error
  | "addr" => Ip.parse put.value = none ∧ .badAddress text put.value = error
  | "port" => (∀ port, ¬ IsPort put.value port) ∧ .badPort text put.value = error
  | "mode" => (∀ mode, ¬ IsMode put.value mode) ∧ .badMode text put.value = error
  | _ => False

/-- The setting is one of those that are looked at as they come, and is wrong. -/
def Wrong (checked : List String) (text : String) (put : Setting) (error : AddressError) : Prop :=
  put.key ∈ checked ∧ Offends text put error

variable {text value : String} {error : AddressError} {put : Setting} {settings : List Setting}

section Values

theorem parseIp_eq_ok {ip : Ip} : parseIp text value = .ok ip ↔ Ip.parse value = some ip := by
  rw [parseIp]
  split <;> simp [*]

theorem parsePort_eq_ok {port : UInt16} : parsePort text value = .ok port ↔ IsPort value port := by
  have within : port.toNat ≤ 65535 := Nat.le_of_lt_succ port.toNat_lt
  have found : IsPort value port ↔ Numeral.parse 10 65535 value.toList = some port.toNat := by
    rw [Numeral.parse_eq_some, IsPort, and_iff_right within]
  rw [parsePort, found]
  constructor
  next =>
    intro read
    split at read
    next n found =>
      have bound := (Numeral.parse_eq_some.mp found).1
      rwa [← Except.ok.inj read, UInt16.toNat_ofNat', Nat.mod_eq_of_lt (by omega)]
    next => contradiction
  next =>
    intro found
    simp [found]

theorem parseMode_eq_ok {mode : UInt32} : parseMode text value = .ok mode ↔ IsMode value mode := by
  rw [parseMode, IsMode, ← Numeral.parse_eq_some]
  constructor
  next =>
    intro read
    split at read
    next n found =>
      have bound := (Numeral.parse_eq_some.mp found).1
      rwa [← Except.ok.inj read, UInt32.toNat_ofNat', Nat.mod_eq_of_lt (by omega)]
    next => contradiction
  next =>
    intro found
    simp [found]

theorem isPort_unique {one two : UInt16} (first : IsPort value one) (second : IsPort value two) :
    one = two :=
  UInt16.toNat_inj.mp (Numeral.denotes_unique first second)

theorem readsMode_unique {one two : Option UInt32} (first : ReadsMode value one)
    (second : ReadsMode value two) : one = two := by
  obtain ⟨one, ⟨-, read⟩, rfl⟩ := first
  obtain ⟨two, ⟨-, other⟩, rfl⟩ := second
  rw [UInt32.toNat_inj.mp (Numeral.denotes_unique read other)]

theorem eq_error_of_ok {α : Type} {read : Except AddressError α} {means : α → Prop}
    {only : AddressError} (ok : ∀ result, read = .ok result ↔ means result)
    (fails : ∀ error, read = .error error → only = error) :
    read = .error error ↔ (∀ result, ¬ means result) ∧ only = error := by
  constructor
  next =>
    intro failed
    refine ⟨fun result meant => ?_, fails error failed⟩
    rw [(ok result).mpr meant] at failed
    contradiction
  next =>
    rintro ⟨unread, rfl⟩
    cases read with
    | ok result => exact absurd ((ok result).mp rfl) (unread result)
    | error other => exact congrArg _ (fails other rfl).symm

theorem parseIp_eq_error :
    parseIp text value = .error error ↔ Ip.parse value = none ∧ .badAddress text value = error := by
  rw [parseIp]
  split <;> simp [*]

theorem parsePort_eq_error :
    parsePort text value = .error error ↔
      (∀ port, ¬ IsPort value port) ∧ .badPort text value = error := by
  apply eq_error_of_ok (fun _ => parsePort_eq_ok)
  intro error failed
  rw [parsePort] at failed
  split at failed
  next => contradiction
  next => exact Except.error.inj failed

theorem parseMode_eq_error :
    parseMode text value = .error error ↔
      (∀ mode, ¬ IsMode value mode) ∧ .badMode text value = error := by
  apply eq_error_of_ok (fun _ => parseMode_eq_ok)
  intro error failed
  rw [parseMode] at failed
  split at failed
  next => contradiction
  next => exact Except.error.inj failed

end Values

theorem about_parseIp (other : String) :
    (parseIp text value).mapError (·.about other) = parseIp other value := by
  rw [parseIp, parseIp]
  split <;> rfl

theorem about_parsePort (other : String) :
    (parsePort text value).mapError (·.about other) = parsePort other value := by
  rw [parsePort, parsePort]
  split <;> rfl

theorem about_parseMode (other : String) :
    (parseMode text value).mapError (·.about other) = parseMode other value := by
  rw [parseMode, parseMode]
  split <;> rfl

theorem lastReads_values {σ β : Type} {step : σ → Setting → Except AddressError σ}
    {settings : List Setting} {seen last : σ} (get : σ → β) {keys : List String}
    {reads : String → β → Prop}
    (sets : ∀ {seen put next}, step seen put = .ok next →
      if put.key ∈ keys then reads put.value (get next) else get next = get seen)
    (read : settings.foldlM step seen = .ok last) :
    LastReads reads (Options.values keys settings) (get seen) (get last) := by
  rw [Options.values, lastReads_map]
  apply lastReads_of_foldlM get _ _ _ read
  intro seen put next taken
  simpa using sets taken

section Tcp

variable {seen next last : TcpSettings}

theorem TcpSettings.apply_eq_error (seen : TcpSettings) (put : Setting) (error : AddressError) :
    seen.apply text put = .error error ↔ Wrong ["addr", "port"] text put error := by
  unfold TcpSettings.apply Wrong
  split
  next key => simp [map_eq_error, parseIp_eq_error, Offends, key]
  next key => simp [map_eq_error, parsePort_eq_error, Offends, key]
  next => grind

theorem TcpSettings.of_apply (read : seen.apply text put = .ok next) :
    (if put.key ∈ ["addr"] then Ip.parse put.value = some next.ip else next.ip = seen.ip) ∧
      if put.key ∈ ["port"] then IsPort put.value next.port else next.port = seen.port := by
  unfold TcpSettings.apply at read
  split at read
  next key =>
    obtain ⟨ip, found, rfl⟩ := map_eq_ok.mp read
    simp [key, parseIp_eq_ok.mp found]
  next key =>
    obtain ⟨port, found, rfl⟩ := map_eq_ok.mp read
    simp [key, parsePort_eq_ok.mp found]
  next =>
    obtain rfl := Except.ok.inj read
    grind

theorem TcpSettings.of_foldlM (read : settings.foldlM (TcpSettings.apply text) {} = .ok last) :
    LastReads (Ip.parse · = some ·) (Options.values ["addr"] settings) defaultIp last.ip ∧
      LastReads IsPort (Options.values ["port"] settings) 0 last.port :=
  ⟨lastReads_values TcpSettings.ip (fun taken => (of_apply taken).1) read,
    lastReads_values TcpSettings.port (fun taken => (of_apply taken).2) read⟩

theorem TcpSettings.apply_of_other (other : put.key ∉ ["addr", "port"]) :
    seen.apply text put = .ok seen := by
  unfold TcpSettings.apply
  split
  next key => simp [key] at other
  next key => simp [key] at other
  next => rfl

theorem TcpSettings.about_apply (other : String) :
    (seen.apply text put).mapError (·.about other) = seen.apply other put := by
  unfold TcpSettings.apply
  split
  next => rw [mapError_map, about_parseIp]
  next => rw [mapError_map, about_parsePort]
  next => rfl

end Tcp

section Unix

variable {seen next last : UnixSettings}

theorem UnixSettings.apply_eq_error (seen : UnixSettings) (put : Setting) (error : AddressError) :
    seen.apply text put = .error error ↔ Wrong ["mode"] text put error := by
  unfold UnixSettings.apply Wrong
  split
  next key => simp [key]
  next key => simp [map_eq_error, parseMode_eq_error, Offends, key]
  next => grind

theorem UnixSettings.of_apply (read : seen.apply text put = .ok next) :
    (if put.key ∈ ["path"] ∧ put.value ≠ "" then next.path = some put.value
      else next.path = seen.path) ∧
      if put.key ∈ ["mode"] then ReadsMode put.value next.mode else next.mode = seen.mode := by
  unfold UnixSettings.apply at read
  split at read
  next key =>
    obtain rfl := Except.ok.inj read
    by_cases empty : put.value = "" <;> simp [key, empty]
  next key =>
    obtain ⟨mode, found, rfl⟩ := map_eq_ok.mp read
    simp [key, ReadsMode, parseMode_eq_ok.mp found]
  next =>
    obtain rfl := Except.ok.inj read
    grind

theorem UnixSettings.of_foldlM (read : settings.foldlM (UnixSettings.apply text) {} = .ok last) :
    last.path = ((Options.values ["path"] settings).filter (· ≠ "")).getLast? ∧
      LastReads ReadsMode (Options.values ["mode"] settings) none last.mode := by
  constructor
  next =>
    have path := lastReads_of_foldlM UnixSettings.path
      (fun put => put.value ≠ "" && decide (put.key ∈ ["path"]))
      (fun put path => path = some put.value)
      (by
        intro seen put next taken
        simpa [and_comm] using (of_apply taken).1) read
    rw [← lastReads_some, Options.values, List.filter_map, lastReads_map, List.filter_filter]
    exact path
  next => exact lastReads_values UnixSettings.mode (fun taken => (of_apply taken).2) read

theorem UnixSettings.apply_of_other (other : put.key ∉ ["path", "mode"]) :
    seen.apply text put = .ok seen := by
  unfold UnixSettings.apply
  split
  next key => simp [key] at other
  next key => simp [key] at other
  next => rfl

theorem UnixSettings.about_apply (other : String) :
    (seen.apply text put).mapError (·.about other) = seen.apply other put := by
  unfold UnixSettings.apply
  split
  next => rfl
  next => rw [mapError_map, about_parseMode]
  next => rfl

end Unix

section Swtpm

variable {seen next last : SwtpmSettings}

theorem SwtpmSettings.apply_eq_error (seen : SwtpmSettings) (put : Setting)
    (error : AddressError) :
    seen.apply text put = .error error ↔ Wrong ["type", "port", "mode"] text put error := by
  unfold SwtpmSettings.apply Wrong
  split
  next key =>
    simp only [Offends, key]
    split
    next tcp => simp [tcp]
    next unix => simp [unix]
    next => grind
  next key => simp [key]
  next key => simp [key]
  next key => simp [map_eq_error, parsePort_eq_error, Offends, key]
  next key => simp [map_eq_error, parseMode_eq_error, Offends, key]
  next => grind

theorem SwtpmSettings.of_apply (read : seen.apply text put = .ok next) :
    (if put.key ∈ ["type"] then Names put.value next.transport
      else next.transport = seen.transport) ∧
    (if put.key ∈ ["addr", "path"] then next.address = some put.value
      else next.address = seen.address) ∧
    (if put.key ∈ ["port"] then IsPort put.value next.port else next.port = seen.port) ∧
      if put.key ∈ ["mode"] then ReadsMode put.value next.mode else next.mode = seen.mode := by
  unfold SwtpmSettings.apply at read
  split at read
  next key =>
    split at read
    next tcp =>
      obtain rfl := Except.ok.inj read
      simp [key, tcp, Names]
    next unix =>
      obtain rfl := Except.ok.inj read
      simp [key, unix, Names]
    next => contradiction
  next key =>
    obtain rfl := Except.ok.inj read
    simp [key]
  next key =>
    obtain rfl := Except.ok.inj read
    simp [key]
  next key =>
    obtain ⟨port, found, rfl⟩ := map_eq_ok.mp read
    simp [key, parsePort_eq_ok.mp found]
  next key =>
    obtain ⟨mode, found, rfl⟩ := map_eq_ok.mp read
    simp [key, ReadsMode, parseMode_eq_ok.mp found]
  next =>
    obtain rfl := Except.ok.inj read
    grind

theorem SwtpmSettings.of_foldlM
    (read : settings.foldlM (SwtpmSettings.apply text) {} = .ok last) :
    LastReads Names (Options.values ["type"] settings) none last.transport ∧
      last.address = (Options.values ["addr", "path"] settings).getLast? ∧
      LastReads IsPort (Options.values ["port"] settings) 0 last.port ∧
      LastReads ReadsMode (Options.values ["mode"] settings) none last.mode := by
  refine ⟨?_, lastReads_some.mp ?_, ?_, ?_⟩
  next => exact lastReads_values SwtpmSettings.transport (fun taken => (of_apply taken).1) read
  next =>
    exact lastReads_values SwtpmSettings.address (fun taken => (of_apply taken).2.1) read
  next =>
    exact lastReads_values SwtpmSettings.port (fun taken => (of_apply taken).2.2.1) read
  next =>
    exact lastReads_values SwtpmSettings.mode (fun taken => (of_apply taken).2.2.2) read

theorem SwtpmSettings.apply_of_other (other : put.key ∉ ["type", "addr", "path", "port", "mode"]) :
    seen.apply text put = .ok seen := by
  unfold SwtpmSettings.apply
  split
  next key => simp [key] at other
  next key => simp [key] at other
  next key => simp [key] at other
  next key => simp [key] at other
  next key => simp [key] at other
  next => rfl

theorem SwtpmSettings.about_apply (other : String) :
    (seen.apply text put).mapError (·.about other) = seen.apply other put := by
  unfold SwtpmSettings.apply
  split
  next => split <;> rfl
  next => rfl
  next => rfl
  next => rw [mapError_map, about_parsePort]
  next => rw [mapError_map, about_parseMode]
  next => rfl

end Swtpm

end Endpoint

end TpmRelay
