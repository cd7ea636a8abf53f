import TpmRelay.Proofs.Address.Grammar

set_option autoImplicit false

namespace TpmRelay.Endpoint

open Options

variable {text other : String} {puts : List Setting}

theorem swtpm_gives_unique {one two : Endpoint} (first : swtpmGrammar.gives puts one)
    (second : swtpmGrammar.gives puts two) : one = two := by
  rcases first with ⟨named, ip, port, rfl, ips, ports⟩ | ⟨named, path, mode, rfl, last, modes⟩ <;>
    rcases second with
      ⟨named', ip', port', rfl, ips', ports'⟩ | ⟨named', path', mode', rfl, last', modes'⟩
  next =>
    have address : ip = ip' := by
      apply lastReads_unique ips ips'
      intro value one two first second
      exact Option.some.inj (first.symm.trans second)
    rw [address, lastReads_unique ports ports' isPort_unique]
  next => simp [named] at named'
  next => simp [named] at named'
  next =>
    rw [Option.some.inj (last.symm.trans last'), lastReads_unique modes modes' readsMode_unique]

variable {grammar : Grammar} {typed : List Setting}
  {outcome outcome' : Except AddressError Endpoint}

theorem Grammar.Decides.ok_iff (decided : grammar.Decides text puts outcome)
    (decided' : swtpmGrammar.Decides other typed outcome')
    (accepts : grammar.accepts puts ↔ swtpmGrammar.accepts typed)
    (gives : ∀ {endpoint}, grammar.gives puts endpoint → swtpmGrammar.gives typed endpoint)
    (endpoint : Endpoint) : outcome = .ok endpoint ↔ outcome' = .ok endpoint := by
  have both := (decided.accepted.trans accepts).trans decided'.accepted.symm
  have same {one two : Endpoint} (read : outcome = .ok one) (read' : outcome' = .ok two) :
      one = two :=
    swtpm_gives_unique (gives (decided.given one read)) (decided'.given two read')
  constructor
  next =>
    intro read
    obtain ⟨endpoint', read'⟩ := both.mp ⟨endpoint, read⟩
    rw [read', same read read']
  next =>
    intro read'
    obtain ⟨endpoint', read⟩ := both.mpr ⟨endpoint, read'⟩
    rw [read, same read read']

theorem Offends.about {put : Setting} {error : AddressError} (wrong : Offends text put error) :
    Offends other put (error.about other) := by
  unfold Offends at wrong ⊢
  split at wrong
  next => exact ⟨wrong.1, wrong.2 ▸ rfl⟩
  next => exact ⟨wrong.1, wrong.2 ▸ rfl⟩
  next => exact ⟨wrong.1, wrong.2 ▸ rfl⟩
  next => exact ⟨wrong.1, wrong.2 ▸ rfl⟩
  next => exact wrong

theorem getLast?_eq_some_iff_of_once {items : List String} (once : items.length ≤ 1)
    {item : String} : items.getLast? = some item ↔ item ∈ items := by
  rcases items with - | ⟨first, - | ⟨second, rest⟩⟩
  next => simp
  next => simp [eq_comm]
  next => simp at once

section Typed

variable {name : String}

theorem settings_typed (plain : ',' ∉ name.toList) (options : String) :
    settings ("type" ++ "=" ++ name ++ "," ++ options).toList =
      ⟨"type", name⟩ :: settings options.toList := by
  rw [settings_and, settings_single (by decide) (by simp [plain])]
  rfl

theorem parse_typed (plain : ',' ∉ name.toList) (options : String) :
    parse ("type" ++ "=" ++ name ++ "," ++ options) =
      parseSwtpm ("type" ++ "=" ++ name ++ "," ++ options) := by
  have noKind : ¬ hasKind ("type" ++ "=" ++ name ++ "," ++ options) := by
    simp [hasKind, String.toList_append]
  rw [parse, if_neg noKind, settings_typed plain]
  simp

variable {known : List String} (only : ∀ put ∈ puts, put.key ∈ known)
include only

theorem values_type (plain : "type" ∉ known) :
    values ["type"] (⟨"type", name⟩ :: puts) = [name] := by
  rw [values_cons, if_pos (by simp), values_of_only only]
  simp [values, plain]

theorem values_typed {keys : List String} (plain : "type" ∉ keys) :
    values keys (⟨"type", name⟩ :: puts) = values (keys.filter (· ∈ known)) puts := by
  rw [values_cons, if_neg plain, values_of_only only]

end Typed

section Tcp

variable (only : ∀ put ∈ puts, put.key ∈ ["addr", "port"])
include only

theorem typed_tcp_values :
    let typed := ⟨"type", "tcp"⟩ :: puts
    values ["type"] typed = ["tcp"] ∧ values ["addr", "path"] typed = values ["addr"] puts ∧
      values ["port"] typed = values ["port"] puts ∧ values ["mode"] typed = [] := by
  refine ⟨values_type only (by decide), ?_, ?_, ?_⟩ <;>
    rw [values_typed only (by decide)] <;> simp [values]

theorem tcp_accepts_iff (once : (values ["addr"] puts).length ≤ 1) :
    tcpGrammar.accepts puts ↔ swtpmGrammar.accepts (⟨"type", "tcp"⟩ :: puts) := by
  obtain ⟨type, address, port, mode⟩ := typed_tcp_values only
  simp only [tcpGrammar, swtpmGrammar, type, address, port, mode]
  simp [getLast?_eq_some_iff_of_once once, and_comm]

theorem swtpm_gives_of_tcp {endpoint : Endpoint} (gives : tcpGrammar.gives puts endpoint) :
    swtpmGrammar.gives (⟨"type", "tcp"⟩ :: puts) endpoint := by
  obtain ⟨type, address, port, -⟩ := typed_tcp_values only
  simp only [swtpmGrammar, type, address, port]
  exact .inl ⟨rfl, gives⟩

end Tcp

section Unix

variable (only : ∀ put ∈ puts, put.key ∈ ["path", "mode"])
include only

theorem typed_unix_values :
    let typed := ⟨"type", "unixio"⟩ :: puts
    values ["type"] typed = ["unixio"] ∧ values ["addr", "path"] typed = values ["path"] puts ∧
      values ["port"] typed = [] ∧ values ["mode"] typed = values ["mode"] puts := by
  refine ⟨values_type only (by decide), ?_, ?_, ?_⟩ <;>
    rw [values_typed only (by decide)] <;> simp [values]

theorem swtpm_error_of_unix (decided : unixGrammar.Decides text puts outcome)
    (decided' : swtpmGrammar.Decides other (⟨"type", "unixio"⟩ :: puts) outcome')
    {error : AddressError} (failed : outcome = .error error) :
    outcome' = .error (error.about other) := by
  have wrong : ∀ put ∈ puts, ∀ error, Wrong ["mode"] text put error →
      Wrong ["type", "port", "mode"] other put (error.about other) := by
    rintro put - error ⟨key, offends⟩
    exact ⟨List.mem_cons_of_mem _ (List.mem_cons_of_mem _ key), offends.about⟩
  have fine : ∀ put ∈ puts, (∀ error, ¬ Wrong ["mode"] text put error) →
      ∀ error, ¬ Wrong ["type", "port", "mode"] other put error := by
    rintro put member fine error ⟨key, offends⟩
    have mode : put.key ∈ ["mode"] := by
      have known := only put member
      grind
    exact fine _ ⟨mode, offends.about⟩
  have typed : ∀ error, ¬ Wrong ["type", "port", "mode"] other ⟨"type", "unixio"⟩ error := by
    simp [Wrong, Offends]
  rw [decided'.refused, first_cons, List.forall_mem_cons]
  rcases (decided.refused error).mp failed with first | ⟨passed, empty, rfl⟩
  next => exact .inl (.inr ⟨typed, first.map wrong fine⟩)
  next =>
    obtain ⟨type, address, -, -⟩ := typed_unix_values only
    refine .inr ⟨⟨typed, fun put member => fine put member (passed put member)⟩, ?_⟩
    simp only [swtpmGrammar, type, address]
    refine .inr (.inr ⟨rfl, ?_, rfl⟩)
    intro path last
    exact empty path (List.mem_of_getLast? last)

variable (once : (values ["path"] puts).length ≤ 1)
include once

theorem unix_accepts_iff :
    unixGrammar.accepts puts ↔ swtpmGrammar.accepts (⟨"type", "unixio"⟩ :: puts) := by
  obtain ⟨type, address, port, mode⟩ := typed_unix_values only
  simp only [unixGrammar, swtpmGrammar, type, address, port, mode]
  simp [getLast?_eq_some_iff_of_once once]

theorem swtpm_gives_of_unix {endpoint : Endpoint} (gives : unixGrammar.gives puts endpoint) :
    swtpmGrammar.gives (⟨"type", "unixio"⟩ :: puts) endpoint := by
  obtain ⟨type, address, -, modes⟩ := typed_unix_values only
  obtain ⟨path, mode, rfl, found, read⟩ := gives
  simp only [swtpmGrammar, type, address, modes]
  refine .inr ⟨rfl, path, mode, rfl, ?_, read⟩
  -- One dialect passes over empty paths, the other does not; with one path that is the same.
  rw [getLast?_eq_some_iff_of_once once]
  exact List.mem_of_mem_filter (List.mem_of_getLast? found)

end Unix

theorem dialects_agree (options : String) :
    let puts := settings options.toList
    ((∀ put ∈ puts, put.key ∈ ["addr", "port"]) → (values ["addr"] puts).length ≤ 1 →
      (parse ("tcp:" ++ options)).toOption = (parse ("type=tcp," ++ options)).toOption) ∧
    ((∀ put ∈ puts, put.key ∈ ["path", "mode"]) → (values ["path"] puts).length ≤ 1 →
      (parse ("unix:" ++ options)).mapError (·.about ("type=unixio," ++ options)) =
        parse ("type=unixio," ++ options)) := by
  intro puts
  constructor
  next =>
    intro only once
    have spelled : "type=tcp," ++ options = "type" ++ "=" ++ "tcp" ++ "," ++ options := by
      simp
    have decided' := parseSwtpm_decides ("type" ++ "=" ++ "tcp" ++ "," ++ options)
    rw [settings_typed (by decide)] at decided'
    rw [spelled, parse_tcp, parse_typed (by decide)]
    apply toOption_congr
    exact (parseTcp_decides _ _).ok_iff decided' (tcp_accepts_iff only once)
      (swtpm_gives_of_tcp only)
  next =>
    intro only once
    have spelled : "type=unixio," ++ options = "type" ++ "=" ++ "unixio" ++ "," ++ options := by
      simp
    have decided := parseUnix_decides ("unix:" ++ options) options.toList
    have decided' := parseSwtpm_decides ("type" ++ "=" ++ "unixio" ++ "," ++ options)
    rw [settings_typed (by decide)] at decided'
    rw [spelled, parse_unix, parse_typed (by decide)]
    cases read : parseUnix ("unix:" ++ options) options.toList with
    | ok endpoint =>
      have same := decided.ok_iff decided' (unix_accepts_iff only once)
        (swtpm_gives_of_unix only once) endpoint
      exact (same.mp read).symm
    | error error => exact (swtpm_error_of_unix only decided decided' read).symm

-- The last port counts in both; a path that is empty is missing in both.
theorem dialects_agree_in_any_order :
    (parse ("tcp:" ++ "port=7,,addr=::1,port=08")).toOption = some ⟨.tcp, "::1", some 8, none⟩ ∧
      (parse ("type=tcp," ++ "port=7,,addr=::1,port=08")).toOption =
        some ⟨.tcp, "::1", some 8, none⟩ ∧
      parse ("unix:" ++ "mode=0640,,path") = .error (.missingPath "unix:mode=0640,,path") ∧
      parse ("type=unixio," ++ "mode=0640,,path") =
        .error (.missingPath "type=unixio,mode=0640,,path") := by
  have tcp := (dialects_agree "port=7,,addr=::1,port=08").1 (by decide) (by decide)
  have unix := (dialects_agree "mode=0640,,path").2 (by decide) (by decide)
  have endpoint : (parse ("tcp:" ++ "port=7,,addr=::1,port=08")).toOption =
      some ⟨.tcp, "::1", some 8, none⟩ := by decide +kernel
  have missing : parse ("unix:" ++ "mode=0640,,path") =
      .error (.missingPath "unix:mode=0640,,path") := by decide +kernel
  rw [missing] at unix
  exact ⟨endpoint, tcp ▸ endpoint, missing, unix.symm⟩

end TpmRelay.Endpoint
