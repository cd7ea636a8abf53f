import TpmRelay.Proofs.Address.Reading
import TpmRelay.Proofs.Address.Settings

set_option autoImplicit false

namespace TpmRelay.Endpoint

open Options

variable {text : String} {puts : List Setting}

theorem parseKinded_tcp (options : String) :
    parseKinded ("tcp:" ++ options) = parseTcp ("tcp:" ++ options) options.toList := by
  simp [parseKinded, String.toList_append, List.isPrefixOf?]

theorem parseKinded_unix (options : String) :
    parseKinded ("unix:" ++ options) = parseUnix ("unix:" ++ options) options.toList := by
  simp [parseKinded, String.toList_append, List.isPrefixOf?]

theorem parse_tcp (options : String) :
    parse ("tcp:" ++ options) = parseTcp ("tcp:" ++ options) options.toList := by
  rw [parse, if_pos (by simp [hasKind, String.toList_append]), parseKinded_tcp]

theorem parse_unix (options : String) :
    parse ("unix:" ++ options) = parseUnix ("unix:" ++ options) options.toList := by
  rw [parse, if_pos (by simp [hasKind, String.toList_append]), parseKinded_unix]

def Acceptable (key value : String) : Prop :=
  match key with
  | "type" => value = "tcp" ∨ value = "unixio"
  | "addr" => ∃ ip, Ip.parse value = some ip
  | "port" => ∃ port, IsPort value port
  | "mode" => ∃ mode, IsMode value mode
  | _ => True

theorem not_offends {put : Setting} :
    (∀ error, ¬ Offends text put error) ↔ Acceptable put.key put.value := by
  unfold Offends
  split
  next key => simp [Acceptable, key, or_iff_not_imp_left]
  next key => simp [Acceptable, key, Option.ne_none_iff_exists']
  next key => simp [Acceptable, key]
  next key => simp [Acceptable, key]
  next => simp [Acceptable]

theorem not_wrong {checked : List String} :
    (∀ put ∈ puts, ∀ error, ¬ Wrong checked text put error) ↔
      ∀ key ∈ checked, ∀ value ∈ values [key] puts, Acceptable key value := by
  simp only [Wrong, not_and, values, List.mem_map, List.mem_filter, List.mem_singleton,
    decide_eq_true_eq]
  constructor
  next =>
    rintro fine key member value ⟨put, ⟨listed, rfl⟩, rfl⟩
    exact not_offends.mp fun error => fine put listed error member
  next =>
    intro fine put listed error member
    exact not_offends.mpr (fine put.key member put.value ⟨put, ⟨listed, rfl⟩, rfl⟩) error

structure Grammar where
  known : List String
  -- The keys whose values are looked at as they come.
  checked : List String
  accepts : List Setting → Prop
  gives : List Setting → Endpoint → Prop
  -- What counts only where no setting is wrong by itself.
  lacks : String → List Setting → AddressError → Prop

structure Grammar.Decides (grammar : Grammar) (text : String) (puts : List Setting)
    (outcome : Except AddressError Endpoint) : Prop where
  accepted : (∃ endpoint, outcome = .ok endpoint) ↔ grammar.accepts puts
  given : ∀ endpoint, outcome = .ok endpoint → grammar.gives puts endpoint
  refused : ∀ error, outcome = .error error ↔
    First (Wrong grammar.checked text) puts error ∨
      (∀ put ∈ puts, ∀ error, ¬ Wrong grammar.checked text put error) ∧
        grammar.lacks text puts error

/-- Settings with other keys change nothing but the text that an error is about. -/
structure Grammar.Describes (grammar : Grammar) (parser : String → Except AddressError Endpoint)
    (whole : String → String) : Prop where
  decides : ∀ options,
    grammar.Decides (whole options) (settings options.toList) (parser (whole options))
  ignores : ∀ options other,
    (settings options.toList).filter (·.key ∈ grammar.known) =
        (settings other.toList).filter (·.key ∈ grammar.known) →
      (parser (whole options)).mapError (·.about (whole other)) = parser (whole other)

def tcpGrammar : Grammar where
  known := ["addr", "port"]
  checked := ["addr", "port"]
  accepts puts :=
    (∀ value ∈ values ["addr"] puts, ∃ ip, Ip.parse value = some ip) ∧
      ∀ value ∈ values ["port"] puts, ∃ port, IsPort value port
  gives puts endpoint :=
    ∃ ip port, endpoint = tcp ip port ∧
      LastReads (Ip.parse · = some ·) (values ["addr"] puts) defaultIp ip ∧
      LastReads IsPort (values ["port"] puts) 0 port
  lacks _ _ _ := False

def unixGrammar : Grammar where
  known := ["path", "mode"]
  checked := ["mode"]
  accepts puts :=
    (∀ value ∈ values ["mode"] puts, ∃ mode, IsMode value mode) ∧
      ∃ path ∈ values ["path"] puts, path ≠ ""
  gives puts endpoint :=
    ∃ path mode, endpoint = { unix path with mode } ∧
      ((values ["path"] puts).filter (· ≠ "")).getLast? = some path ∧
      LastReads ReadsMode (values ["mode"] puts) none mode
  lacks text puts error :=
    (∀ path ∈ values ["path"] puts, path = "") ∧ .missingPath text = error

def swtpmGrammar : Grammar where
  known := ["type", "addr", "path", "port", "mode"]
  checked := ["type", "port", "mode"]
  accepts puts :=
    let type := (values ["type"] puts).getLast?
    let address := (values ["addr", "path"] puts).getLast?
    values ["type"] puts ≠ [] ∧
      (∀ value ∈ values ["type"] puts, value = "tcp" ∨ value = "unixio") ∧
      (∀ value ∈ values ["port"] puts, ∃ port, IsPort value port) ∧
      (∀ value ∈ values ["mode"] puts, ∃ mode, IsMode value mode) ∧
      (type = some "tcp" → ∀ value ∈ address, ∃ ip, Ip.parse value = some ip) ∧
      (type = some "unixio" → ∃ path ∈ address, path ≠ "")
  gives puts endpoint :=
    let type := (values ["type"] puts).getLast?
    (type = some "tcp" ∧ ∃ ip port, endpoint = tcp ip port ∧
      LastReads (Ip.parse · = some ·) (values ["addr", "path"] puts) defaultIp ip ∧
      LastReads IsPort (values ["port"] puts) 0 port) ∨
    type = some "unixio" ∧ ∃ path mode, endpoint = { unix path with mode } ∧
      (values ["addr", "path"] puts).getLast? = some path ∧
      LastReads ReadsMode (values ["mode"] puts) none mode
  lacks text puts error :=
    let type := (values ["type"] puts).getLast?
    let address := (values ["addr", "path"] puts).getLast?
    (values ["type"] puts = [] ∧ .unknownKind text = error) ∨
      (type = some "tcp" ∧ ∃ value ∈ address, Ip.parse value = none ∧
        .badAddress text value = error) ∨
      type = some "unixio" ∧ (∀ path ∈ address, path = "") ∧ .missingPath text = error

theorem Grammar.decides_of_fold {grammar : Grammar} {σ : Type}
    {step : σ → Setting → Except AddressError σ} {seen : σ}
    {finish : σ → Except AddressError Endpoint}
    (refuses : ∀ seen put error,
      step seen put = .error error ↔ Wrong grammar.checked text put error)
    (accepts : grammar.accepts puts ↔
      (∀ key ∈ grammar.checked, ∀ value ∈ values [key] puts, Acceptable key value) ∧
        ∀ error, ¬ grammar.lacks text puts error)
    (gives : ∀ {last endpoint}, puts.foldlM step seen = .ok last →
      finish last = .ok endpoint → grammar.gives puts endpoint)
    (lacks : ∀ {last error}, puts.foldlM step seen = .ok last →
      (finish last = .error error ↔ grammar.lacks text puts error)) :
    grammar.Decides text puts (puts.foldlM step seen >>= finish) := by
  have fine : (∃ last, puts.foldlM step seen = .ok last) ↔
      ∀ put ∈ puts, ∀ error, ¬ Wrong grammar.checked text put error :=
    exists_foldlM_eq_ok refuses
  constructor
  case accepted =>
    rw [accepts, ← not_wrong, ← fine]
    simp only [fold_eq_ok]
    constructor
    next =>
      rintro ⟨endpoint, last, folded, ended⟩
      refine ⟨⟨last, folded⟩, fun error lacking => ?_⟩
      rw [(lacks folded).mpr lacking] at ended
      contradiction
    next =>
      rintro ⟨⟨last, folded⟩, complete⟩
      cases ended : finish last with
      | ok endpoint => exact ⟨endpoint, last, folded, ended⟩
      | error error => exact absurd ((lacks folded).mp ended) (complete error)
  case given =>
    intro endpoint read
    obtain ⟨last, folded, ended⟩ := fold_eq_ok.mp read
    exact gives folded ended
  case refused =>
    intro error
    rw [fold_eq_error refuses, ← fine]
    refine or_congr_right ?_
    constructor
    next =>
      rintro ⟨last, folded, ended⟩
      exact ⟨⟨last, folded⟩, (lacks folded).mp ended⟩
    next =>
      rintro ⟨⟨last, folded⟩, lacking⟩
      exact ⟨last, folded, (lacks folded).mpr lacking⟩

section Decides

variable (text : String) (options : List Char)

theorem parseTcp_decides :
    tcpGrammar.Decides text (settings options) (parseTcp text options) := by
  apply Grammar.decides_of_fold TcpSettings.apply_eq_error
  next => simp [tcpGrammar, Acceptable]
  next =>
    intro last endpoint folded ended
    exact ⟨last.ip, last.port, (Except.ok.inj ended).symm, TcpSettings.of_foldlM folded⟩
  next => simp [tcpGrammar]

theorem parseUnix_decides :
    unixGrammar.Decides text (settings options) (parseUnix text options) := by
  apply Grammar.decides_of_fold UnixSettings.apply_eq_error
  next => simp [unixGrammar, Acceptable]
  next =>
    intro last endpoint folded ended
    obtain ⟨paths, modes⟩ := UnixSettings.of_foldlM folded
    cases found : last.path with
    | none => simp [found] at ended
    | some path =>
      rw [found] at ended paths
      exact ⟨path, last.mode, (Except.ok.inj ended).symm, paths.symm, modes⟩
  next =>
    intro last error folded
    have missing : last.path = none ↔ ∀ path ∈ values ["path"] (settings options), path = "" := by
      rw [(UnixSettings.of_foldlM folded).1, List.getLast?_eq_none_iff, List.filter_eq_nil_iff]
      simp
    simp only [unixGrammar, ← missing]
    cases last.path <;> simp

theorem names_iff {named : List String} {transport : Option Transport}
    (read : LastReads Names named none transport) :
    (transport = none ↔ named = []) ∧ (transport = some .tcp ↔ named.getLast? = some "tcp") ∧
      (transport = some .unix ↔ named.getLast? = some "unixio") := by
  rw [LastReads] at read
  split at read
  next empty =>
    subst read
    simp [List.getLast?_eq_none_iff.mp empty]
  next value last =>
    have some' : named ≠ [] := by
      rintro rfl
      simp at last
    rcases read with ⟨rfl, rfl⟩ | ⟨rfl, rfl⟩ <;> simp [last, some']

theorem swtpm_lacks_nothing :
    (∀ error, ¬ swtpmGrammar.lacks text puts error) ↔
      values ["type"] puts ≠ [] ∧
      ((values ["type"] puts).getLast? = some "tcp" →
        ∀ value ∈ (values ["addr", "path"] puts).getLast?, ∃ ip, Ip.parse value = some ip) ∧
      ((values ["type"] puts).getLast? = some "unixio" →
        ∃ path ∈ (values ["addr", "path"] puts).getLast?, path ≠ "") := by
  constructor
  next =>
    intro complete
    refine ⟨fun empty => complete _ (.inl ⟨empty, rfl⟩), fun tcp value found => ?_, fun unix => ?_⟩
    next =>
      rw [← Option.ne_none_iff_exists']
      intro unread
      exact complete _ (.inr (.inl ⟨tcp, value, found, unread, rfl⟩))
    next =>
      by_contra missing
      simp only [not_exists, not_and, not_not] at missing
      exact complete _ (.inr (.inr ⟨unix, missing, rfl⟩))
  next =>
    rintro ⟨typed, tcp, unix⟩ error
      (⟨empty, -⟩ | ⟨named, value, found, unread, -⟩ | ⟨named, missing, -⟩)
    next => exact typed empty
    next =>
      obtain ⟨ip, read⟩ := tcp named value found
      rw [read] at unread
      contradiction
    next =>
      obtain ⟨path, found, some'⟩ := unix named
      exact some' (missing path found)

theorem parseSwtpm_decides :
    swtpmGrammar.Decides text (settings text.toList) (parseSwtpm text) := by
  apply Grammar.decides_of_fold SwtpmSettings.apply_eq_error
  next =>
    rw [swtpm_lacks_nothing]
    simp only [swtpmGrammar, Acceptable, List.forall_mem_cons, List.not_mem_nil, false_implies,
      forall_const, and_true]
    tauto
  next =>
    intro last endpoint folded ended
    obtain ⟨named, addresses, ports, modes⟩ := SwtpmSettings.of_foldlM folded
    obtain ⟨-, tcp, unix⟩ := names_iff named
    rw [lastReads_iff] at ports modes
    -- From here on it is said of what was seen last, not of the text.
    simp only [swtpmGrammar, ← tcp, ← unix, ← addresses, lastReads_iff]
    rcases last with ⟨none | tcp | unix, none | value, port, mode⟩
    next => simp at ended
    next => simp at ended
    next => exact .inl ⟨rfl, defaultIp, port, (Except.ok.inj ended).symm, rfl, ports⟩
    next =>
      cases read : Ip.parse value with
      | none => simp [parseIp, read] at ended
      | some ip =>
        simp only [parseIp, read] at ended
        exact .inl ⟨rfl, ip, port, (Except.ok.inj ended).symm, read, ports⟩
    next => simp at ended
    next =>
      by_cases empty : value = ""
      next => simp [empty, Option.filter_some] at ended
      next =>
        simp only [Option.filter_some, ne_eq, empty, not_false_eq_true, decide_true,
          if_true] at ended
        exact .inr ⟨rfl, value, mode, (Except.ok.inj ended).symm, rfl, modes⟩
  next =>
    intro last error folded
    obtain ⟨named, addresses, -, -⟩ := SwtpmSettings.of_foldlM folded
    obtain ⟨none, tcp, unix⟩ := names_iff named
    simp only [swtpmGrammar, ← none, ← tcp, ← unix, ← addresses]
    rcases last with ⟨none | tcp | unix, none | value, port, mode⟩
    next => simp
    next => simp
    next => simp
    next => cases read : Ip.parse value <;> simp [parseIp, read]
    next => simp
    next => by_cases empty : value = "" <;> simp [empty, Option.filter_some]

end Decides

theorem tcpGrammar_describes : tcpGrammar.Describes parseKinded ("tcp:" ++ ·) := by
  constructor
  case decides =>
    intro options
    rw [parseKinded_tcp]
    apply parseTcp_decides
  case ignores =>
    intro options other same
    rw [parseKinded_tcp, parseKinded_tcp, parseTcp, parseTcp, foldlM_congr _ same]
    next => exact mapError_fold (fun _ _ => TcpSettings.about_apply _) fun _ => rfl
    next => exact fun seen put unknown => TcpSettings.apply_of_other (of_decide_eq_false unknown)

theorem unixGrammar_describes : unixGrammar.Describes parseKinded ("unix:" ++ ·) := by
  constructor
  case decides =>
    intro options
    rw [parseKinded_unix]
    apply parseUnix_decides
  case ignores =>
    intro options other same
    rw [parseKinded_unix, parseKinded_unix, parseUnix, parseUnix, foldlM_congr _ same]
    next =>
      apply mapError_fold fun _ _ => UnixSettings.about_apply _
      intro last
      cases last.path <;> rfl
    next => exact fun seen put unknown => UnixSettings.apply_of_other (of_decide_eq_false unknown)

theorem swtpmGrammar_describes : swtpmGrammar.Describes parseSwtpm id := by
  constructor
  case decides => exact fun options => parseSwtpm_decides options
  case ignores =>
    intro options other same
    rw [id, id, parseSwtpm, parseSwtpm, foldlM_congr _ same]
    next =>
      apply mapError_fold fun _ _ => SwtpmSettings.about_apply _
      rintro ⟨none | tcp | unix, none | value, port, mode⟩
      next => rfl
      next => rfl
      next => rfl
      next =>
        have same : (parseIp options value).mapError (·.about other) = parseIp other value :=
          about_parseIp other
        simp only [← same]
        cases parseIp options value <;> rfl
      next => rfl
      next => cases Option.filter (· ≠ "") (some value) <;> rfl
    next => exact fun seen put unknown => SwtpmSettings.apply_of_other (of_decide_eq_false unknown)

theorem parsers_follow_grammar :
    (∀ options : List Char,
      List.Forall₂ Spells ((options.splitOn ',').filter (· ≠ [])) (settings options)) ∧
      tcpGrammar.Describes parseKinded ("tcp:" ++ ·) ∧
      unixGrammar.Describes parseKinded ("unix:" ++ ·) ∧
      swtpmGrammar.Describes parseSwtpm id :=
  ⟨spells_settings, tcpGrammar_describes, unixGrammar_describes, swtpmGrammar_describes⟩

theorem parsers_follow_grammar_past_unknown :
    let text := "type=unixio,colour,path=/a,,addr="
    parseSwtpm text = .error (.missingPath text) ∧
      (parseSwtpm "type=unixio,path=/a,addr").mapError (·.about text) = parseSwtpm text := by
  intro text
  have same := parsers_follow_grammar.2.2.2.ignores "type=unixio,path=/a,addr" text (by decide)
  exact ⟨by decide, same⟩

end TpmRelay.Endpoint
