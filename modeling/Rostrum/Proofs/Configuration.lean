import Mathlib
import Rostrum.Configuration.Reading
import Rostrum.Proofs.Toml.Distinct

/-!
# What a document configures

A configuration is seventeen values. Each of them is looked up in a document on its own, under the name
of its section and its own name, and is its default where the document gives none. A section that gives
some of its values is no different from six sections that give one each.
-/

namespace Rostrum

open Toml (Members Value)

namespace Configuration

/-! ## Values -/

section
variable {v : Value}

theorem string?_eq_some_iff {s : String} : string? v = some s ↔ v = .string s := by
  cases v <;> simp [string?]

theorem bool?_eq_some_iff {b : Bool} : bool? v = some b ↔ v = .boolean b := by
  cases v <;> simp [bool?]

theorem count?_eq_some_iff {n : Nat} : count? v = some n ↔ v = .integer n := by
  cases v with
  | integer i =>
    simp only [count?, Option.ite_none_right_eq_some, Option.some.injEq, Value.integer.injEq]
    omega
  | _ => simp [count?]

theorem port?_eq_some_iff {n : Nat} : port? v = some n ↔ v = .integer n ∧ n ≤ 65535 := by
  cases v with
  | integer i =>
    simp only [port?, Option.ite_none_right_eq_some, Option.some.injEq, Value.integer.injEq]
    rw [maxPort]
    omega
  | _ => simp [port?]

end

/-! ## Fields -/

/-- What may be given for a field. -/
inductive Kind where
  | text
  | flag
  | count
  | port

namespace Kind

abbrev Carrier : Kind → Type
  | text => String
  | flag => Bool
  | count => Nat
  | port => Nat

/-- A value of a kind, and what it says. -/
def Takes : (k : Kind) → Value → k.Carrier → Prop
  | text, v, s => v = .string s
  | flag, v, b => v = .boolean b
  | count, v, n => v = .integer (n : Nat)
  | port, v, n => v = .integer (n : Nat) ∧ n ≤ 65535

def read? : (k : Kind) → Value → Option k.Carrier
  | text => string?
  | flag => bool?
  | count => count?
  | port => port?

theorem read?_eq_some_iff {k : Kind} {v : Value} {x : k.Carrier} : k.read? v = some x ↔ k.Takes v x := by
  cases k with
  | text => exact string?_eq_some_iff
  | flag => exact bool?_eq_some_iff
  | count => exact count?_eq_some_iff
  | port => exact port?_eq_some_iff

end Kind

/-- The values of a configuration. -/
inductive Field where
  | serverName
  | maxSessions
  | host
  | signalingPort
  | path
  | engineUri
  | callMillis
  | connectMillis
  | pingSeconds
  | keepaliveSeconds
  | timeoutSeconds
  | queueSize
  | maxMessage
  | logLevel
  | logFormat
  | observed
  | observabilityPort

namespace Field

/-- The section a field belongs to. -/
def table : Field → String
  | serverName | maxSessions => "server"
  | host | signalingPort | path => "netzwerk"
  | engineUri | callMillis | connectMillis | pingSeconds => "media"
  | keepaliveSeconds | timeoutSeconds | queueSize | maxMessage => "signaling"
  | logLevel | logFormat => "logging"
  | observed | observabilityPort => "observability"

/-- The name of a field in its section. -/
def key : Field → String
  | serverName => "name"
  | maxSessions => "max_sessions"
  | host => "bind_adresse"
  | signalingPort => "port"
  | path => "pfad"
  | engineUri => "ws_uri"
  | callMillis => "aufruf_timeout_ms"
  | connectMillis => "verbindungs_timeout_ms"
  | pingSeconds => "ping_intervall_sek"
  | keepaliveSeconds => "keepalive_sek"
  | timeoutSeconds => "verbindungs_timeout_sek"
  | queueSize => "sende_queue"
  | maxMessage => "max_nachricht_groesse"
  | logLevel => "level"
  | logFormat => "format"
  | observed => "aktiviert"
  | observabilityPort => "port"

abbrev kind : Field → Kind
  | serverName | host | path | engineUri | logLevel | logFormat => .text
  | observed => .flag
  | signalingPort | observabilityPort => .port
  | maxSessions | callMillis | connectMillis | pingSeconds | keepaliveSeconds | timeoutSeconds | queueSize
  | maxMessage => .count

def of : (f : Field) → Configuration → f.kind.Carrier
  | serverName, c => c.server.name
  | maxSessions, c => c.server.maxSessions
  | host, c => c.network.host
  | signalingPort, c => c.network.port
  | path, c => c.network.path
  | engineUri, c => c.media.uri
  | callMillis, c => c.media.callMillis
  | connectMillis, c => c.media.connectMillis
  | pingSeconds, c => c.media.pingSeconds
  | keepaliveSeconds, c => c.signaling.keepaliveSeconds
  | timeoutSeconds, c => c.signaling.timeoutSeconds
  | queueSize, c => c.signaling.queueSize
  | maxMessage, c => c.signaling.maxMessage
  | logLevel, c => c.logging.level
  | logFormat, c => c.logging.format
  | observed, c => c.observability.enabled
  | observabilityPort, c => c.observability.port

/-- The configuration with these values. -/
def assemble (values : (f : Field) → f.kind.Carrier) : Configuration where
  server := ⟨values serverName, values maxSessions⟩
  network := ⟨values host, values signalingPort, values path⟩
  media := ⟨values engineUri, values callMillis, values connectMillis, values pingSeconds⟩
  signaling := ⟨values keepaliveSeconds, values timeoutSeconds, values queueSize, values maxMessage⟩
  logging := ⟨values logLevel, values logFormat⟩
  observability := ⟨values observed, values observabilityPort⟩

theorem of_assemble (values : (f : Field) → f.kind.Carrier) (f : Field) :
    f.of (assemble values) = values f := by
  cases f <;> rfl

end Field

/-! ## Documents -/

/-- The document gives a value for a field, at whatever place. -/
def Gives (ms : Members) (f : Field) (v : Value) : Prop :=
  ∃ origin inner, (f.table, .table origin inner) ∈ ms ∧ (f.key, v) ∈ inner

/-- Every section that is there is a table. -/
def Tabular (ms : Members) : Prop :=
  ∀ (f : Field) (v : Value), (f.table, v) ∈ ms → ∃ origin inner, v = .table origin inner

/-- The values that a document gives, and the defaults for all others. -/
structure Configures (ms : Members) (c : Configuration) : Prop where
  given : ∀ f v, Gives ms f v → f.kind.Takes v (f.of c)
  default : ∀ f, (∀ v, ¬ Gives ms f v) → f.of c = f.of {}

theorem Configures.congr {ms ms' : Members} {c : Configuration}
    (h : ∀ f v, Gives ms' f v ↔ Gives ms f v) : Configures ms' c ↔ Configures ms c := by
  have hgives : Gives ms' = Gives ms := funext₂ fun f v => propext (h f v)
  constructor
  · intro hc
    exact ⟨hgives ▸ hc.given, hgives ▸ hc.default⟩
  · intro hc
    exact ⟨hgives ▸ hc.given, hgives ▸ hc.default⟩

/-- What stands in a section. -/
def membersOf (ms : Members) (name : String) : Members :=
  match ms.get? name with
  | some (.table _ inner) => inner
  | _ => []

def Field.value? (f : Field) (ms : Members) : Option f.kind.Carrier :=
  valueOr (f.of {}) f.kind.read? (membersOf ms f.table) f.key

variable {ms : Members} {f : Field} {c : Configuration}

theorem gives_iff (h : ms.Distinct) {v : Value} :
    Gives ms f v ↔ (membersOf ms f.table).get? f.key = some v := by
  constructor
  · intro ⟨origin, inner, htable, hv⟩
    have hget : ms.get? f.table = some (.table origin inner) := Table.find_of_mem h.nodup htable
    have hinner : Members.Distinct inner := Value.distinct_table_iff.mp (h.values _ htable)
    rw [membersOf, hget]
    exact Table.find_of_mem hinner.nodup hv
  · intro hv
    unfold membersOf at hv
    split at hv
    · rename_i origin inner hget
      exact ⟨origin, inner, Table.mem_of_find hget, Table.mem_of_find hv⟩
    · cases hv

theorem Field.value?_eq_some_iff (h : ms.Distinct) {x : f.kind.Carrier} : f.value? ms = some x ↔
    (∀ v, Gives ms f v → f.kind.Takes v x) ∧ ((∀ v, ¬ Gives ms f v) → x = f.of {}) := by
  simp only [gives_iff h]
  unfold value? valueOr
  cases hget : (membersOf ms f.table).get? f.key with
  | none => simp [eq_comm]
  | some v => simp [Kind.read?_eq_some_iff]

/-- A section that is missing reads like an empty one. -/
theorem valueOr_section {S : Type} (read : Value → Option S) {default : S} {name : String}
    (htable : ∀ v, ms.get? name = some v → ∃ origin inner, v = .table origin inner)
    (hread : ∀ origin inner, read (.table origin inner) = read (.table .header inner))
    (hempty : read (.table .header []) = some default) :
    valueOr default read ms name = read (.table .header (membersOf ms name)) := by
  unfold valueOr membersOf
  cases hget : ms.get? name with
  | none => exact hempty.symm
  | some v =>
    obtain ⟨origin, inner, rfl⟩ := htable v hget
    exact hread origin inner

section
variable {origin : Toml.Origin} {inner : Members}

theorem server?_eq_some_iff {d s : ServerSection} : server? d (.table origin inner) = some s ↔
    valueOr d.name string? inner "name" = some s.name ∧
      valueOr d.maxSessions count? inner "max_sessions" = some s.maxSessions := by
  obtain ⟨name, maxSessions⟩ := s
  simp [server?, sectionValues?, Option.bind_eq_some_iff]

theorem network?_eq_some_iff {d s : NetworkSection} : network? d (.table origin inner) = some s ↔
    valueOr d.host string? inner "bind_adresse" = some s.host ∧
      valueOr d.port port? inner "port" = some s.port ∧ valueOr d.path string? inner "pfad" = some s.path := by
  obtain ⟨host, port, path⟩ := s
  simp [network?, sectionValues?, Option.bind_eq_some_iff]

theorem media?_eq_some_iff {d s : MediaSection} : media? d (.table origin inner) = some s ↔
    valueOr d.uri string? inner "ws_uri" = some s.uri ∧
      valueOr d.callMillis count? inner "aufruf_timeout_ms" = some s.callMillis ∧
      valueOr d.connectMillis count? inner "verbindungs_timeout_ms" = some s.connectMillis ∧
      valueOr d.pingSeconds count? inner "ping_intervall_sek" = some s.pingSeconds := by
  obtain ⟨uri, callMillis, connectMillis, pingSeconds⟩ := s
  simp [media?, sectionValues?, Option.bind_eq_some_iff]

theorem signaling?_eq_some_iff {d s : SignalingSection} : signaling? d (.table origin inner) = some s ↔
    valueOr d.keepaliveSeconds count? inner "keepalive_sek" = some s.keepaliveSeconds ∧
      valueOr d.timeoutSeconds count? inner "verbindungs_timeout_sek" = some s.timeoutSeconds ∧
      valueOr d.queueSize count? inner "sende_queue" = some s.queueSize ∧
      valueOr d.maxMessage count? inner "max_nachricht_groesse" = some s.maxMessage := by
  obtain ⟨keepaliveSeconds, timeoutSeconds, queueSize, maxMessage⟩ := s
  simp [signaling?, sectionValues?, Option.bind_eq_some_iff]

theorem logging?_eq_some_iff {d s : LoggingSection} : logging? d (.table origin inner) = some s ↔
    valueOr d.level string? inner "level" = some s.level ∧
      valueOr d.format string? inner "format" = some s.format := by
  obtain ⟨level, format⟩ := s
  simp [logging?, sectionValues?, Option.bind_eq_some_iff]

theorem observability?_eq_some_iff {d s : ObservabilitySection} :
    observability? d (.table origin inner) = some s ↔
      valueOr d.enabled bool? inner "aktiviert" = some s.enabled ∧
        valueOr d.port port? inner "port" = some s.port := by
  obtain ⟨enabled, port⟩ := s
  simp [observability?, sectionValues?, Option.bind_eq_some_iff]

end

/-- Of tables, six sections are read, and those that are missing like empty ones. -/
theorem ofMembers?_eq_some_iff (h : Tabular ms) : ofMembers? ms = some c ↔
    server? {} (.table .header (membersOf ms "server")) = some c.server ∧
    network? {} (.table .header (membersOf ms "netzwerk")) = some c.network ∧
    media? {} (.table .header (membersOf ms "media")) = some c.media ∧
    signaling? {} (.table .header (membersOf ms "signaling")) = some c.signaling ∧
    logging? {} (.table .header (membersOf ms "logging")) = some c.logging ∧
    observability? {} (.table .header (membersOf ms "observability")) = some c.observability := by
  have htable (f : Field) v (hv : ms.get? f.table = some v) : ∃ origin inner, v = .table origin inner :=
    h f v (Table.mem_of_find hv)
  have hserver : valueOr {} (server? {}) ms "server" = _ :=
    valueOr_section (server? {}) (htable .serverName) (fun _ _ => rfl) rfl
  have hnetwork : valueOr {} (network? {}) ms "netzwerk" = _ :=
    valueOr_section (network? {}) (htable .host) (fun _ _ => rfl) rfl
  have hmedia : valueOr {} (media? {}) ms "media" = _ :=
    valueOr_section (media? {}) (htable .engineUri) (fun _ _ => rfl) rfl
  have hsignaling : valueOr {} (signaling? {}) ms "signaling" = _ :=
    valueOr_section (signaling? {}) (htable .queueSize) (fun _ _ => rfl) rfl
  have hlogging : valueOr {} (logging? {}) ms "logging" = _ :=
    valueOr_section (logging? {}) (htable .logLevel) (fun _ _ => rfl) rfl
  have hobservability : valueOr {} (observability? {}) ms "observability" = _ :=
    valueOr_section (observability? {}) (htable .observed) (fun _ _ => rfl) rfl
  obtain ⟨server, network, media, signaling, logging, observability⟩ := c
  simp only [ofMembers?, hserver, hnetwork, hmedia, hsignaling, hlogging, hobservability]
  simp [Option.bind_eq_some_iff]

/-- Every field is read on its own. -/
theorem ofMembers?_iff_values (h : Tabular ms) :
    ofMembers? ms = some c ↔ ∀ f : Field, f.value? ms = some (f.of c) := by
  rw [ofMembers?_eq_some_iff h, server?_eq_some_iff, network?_eq_some_iff, media?_eq_some_iff,
    signaling?_eq_some_iff, logging?_eq_some_iff, observability?_eq_some_iff]
  constructor
  · intro ⟨⟨hname, hmax⟩, ⟨hhost, hport, hpath⟩, ⟨huri, hcall, hconnect, hping⟩,
      ⟨hkeepalive, htimeout, hqueue, hmessage⟩, ⟨hlevel, hformat⟩, henabled, hobserved⟩ f
    -- every field is one of the look-ups
    cases f <;> assumption
  · intro hf
    exact ⟨⟨hf .serverName, hf .maxSessions⟩, ⟨hf .host, hf .signalingPort, hf .path⟩,
      ⟨hf .engineUri, hf .callMillis, hf .connectMillis, hf .pingSeconds⟩,
      ⟨hf .keepaliveSeconds, hf .timeoutSeconds, hf .queueSize, hf .maxMessage⟩,
      ⟨hf .logLevel, hf .logFormat⟩, hf .observed, hf .observabilityPort⟩

theorem ofMembers?_iff_configures (hd : ms.Distinct) (ht : Tabular ms) :
    ofMembers? ms = some c ↔ Configures ms c := by
  rw [ofMembers?_iff_values ht]
  constructor
  · intro h
    have hf f := (Field.value?_eq_some_iff hd).mp (h f)
    exact ⟨fun f => (hf f).1, fun f => (hf f).2⟩
  · intro h f
    exact (Field.value?_eq_some_iff hd).mpr ⟨h.given f, h.default f⟩

/-- Values that can be read one by one can be read together. -/
theorem exists_ofMembers?_iff (hd : ms.Distinct) (ht : Tabular ms) :
    (∃ c, ofMembers? ms = some c) ↔ ∀ f v, Gives ms f v → ∃ x, f.kind.Takes v x := by
  constructor
  · intro ⟨c, hc⟩ f v hv
    exact ⟨f.of c, ((ofMembers?_iff_configures hd ht).mp hc).given f v hv⟩
  · intro h
    have hvalue (f : Field) : ∃ x, f.value? ms = some x := by
      unfold Field.value? valueOr
      cases hget : (membersOf ms f.table).get? f.key with
      | none => exact ⟨_, rfl⟩
      | some v =>
        obtain ⟨x, hx⟩ := h f v ((gives_iff hd).mpr hget)
        exact ⟨x, Kind.read?_eq_some_iff.mpr hx⟩
    -- nothing ties the values together, so any choice of them makes a configuration
    choose values hvalues using hvalue
    refine ⟨Field.assemble values, (ofMembers?_iff_values ht).mpr ?_⟩
    intro f
    rw [hvalues f, Field.of_assemble]

/-! ## Checks -/

/-- A configuration that a server can run with. -/
structure Admissible (c : Configuration) : Prop where
  path : c.network.path.toList.head? = some '/'
  sessions : c.server.maxSessions ≠ 0
  callTime : c.media.callMillis ≠ 0
  format : c.logging.format = "text" ∨ c.logging.format = "json"

/-- The value that a fault names is wrong. -/
inductive Blames (c : Configuration) : ConfigurationFault → Prop where
  | relativePath : c.network.path.toList.head? ≠ some '/' → Blames c (.relativePath c.network.path)
  | noSessions : c.server.maxSessions = 0 → Blames c .noSessions
  | noCallTime : c.media.callMillis = 0 → Blames c .noCallTime
  | unknownFormat : c.logging.format ≠ "text" ∧ c.logging.format ≠ "json" →
      Blames c (.unknownFormat c.logging.format)

theorem Blames.not_admissible {fault : ConfigurationFault} (h : Blames c fault) : ¬ Admissible c := by
  intro hc
  cases h with
  | relativePath hpath => exact hpath hc.path
  | noSessions hsessions => exact hc.sessions hsessions
  | noCallTime hcall => exact hc.callTime hcall
  | unknownFormat hformat => exact hc.format.elim hformat.1 hformat.2

theorem startsWith_slash_iff {s : String} : s.startsWith "/" = true ↔ s.toList.head? = some '/' := by
  rw [String.startsWith_string_iff]
  change ['/'] <+: s.toList ↔ _
  cases s.toList with
  | nil => simp
  | cons first rest => simp [List.cons_prefix_cons, eq_comm]

theorem isNone_ofName?_iff {name : String} :
    (Log.Format.ofName? name).isNone = true ↔ name ≠ "text" ∧ name ≠ "json" := by
  simp only [Log.Format.ofName?, Log.Format.name]
  by_cases htext : name = "text"
  · simp [htext]
  · by_cases hjson : name = "json" <;> simp [htext, hjson]

/-- A check passes what a server can run with, and otherwise says what is wrong. -/
theorem check_cases (c : Configuration) :
    (Admissible c ∧ c.check = .ok ()) ∨ ∃ fault, Blames c fault ∧ c.check = .error fault := by
  simp only [check, Bool.not_eq_true', Bool.eq_false_iff, ne_eq, startsWith_slash_iff, isNone_ofName?_iff]
  split
  · rename_i hpath
    exact .inr ⟨_, .relativePath hpath, rfl⟩
  rename_i hpath
  split
  · rename_i hsessions
    exact .inr ⟨_, .noSessions hsessions, rfl⟩
  rename_i hsessions
  split
  · rename_i hcall
    exact .inr ⟨_, .noCallTime hcall, rfl⟩
  rename_i hcall
  split
  · rename_i hformat
    exact .inr ⟨_, .unknownFormat hformat, rfl⟩
  rename_i hformat
  exact .inl ⟨⟨not_not.mp hpath, hsessions, hcall, by tauto⟩, rfl⟩

theorem admissible_default : Admissible {} where
  path := rfl
  sessions := by decide
  callTime := by decide
  format := .inl rfl

theorem check_of_admissible (h : Admissible c) : c.check = .ok () := by
  rcases check_cases c with ⟨_, hcheck⟩ | ⟨fault, hfault, _⟩
  · exact hcheck
  · exact absurd h hfault.not_admissible

theorem load_of_ofText? {text : String} (h : ofText? text = some c) :
    load (.text text) = c.check.bind fun _ => .ok c := by
  rw [load, h]
  rfl

/--
Values override defaults one by one. What the document gives for a field, and no more of it, decides the
value of that field; a value that a field cannot take is the only reason why a document is unusable.
-/
theorem fields_override_independently {text : String} (hparse : Toml.parse? text = some ms) (ht : Tabular ms) :
    ((∃ c, ofText? text = some c) ↔ ∀ f v, Gives ms f v → ∃ x, f.kind.Takes v x) ∧
    (∀ c, ofText? text = some c ↔ Configures ms c) ∧
    (∀ text' ms', Toml.parse? text' = some ms' → Tabular ms' → (∀ f v, Gives ms' f v ↔ Gives ms f v) →
      ofText? text' = ofText? text) ∧
    (∀ c, ofText? text = some c → Admissible c → load (.text text) = .ok c) ∧
    (∀ c, ofText? text = some c → ¬ Admissible c →
      ∃ fault, Blames c fault ∧ load (.text text) = .error fault) ∧
    (ofText? text = none → load (.text text) = .error .malformed) ∧
    Admissible {} ∧ load .missing = .ok {} := by
  have hof {text ms} (h : Toml.parse? text = some ms) : ofText? text = ofMembers? ms := by
    rw [ofText?, h, Option.bind_some]
  have hiff {text ms} (h : Toml.parse? text = some ms) (ht : Tabular ms) c :
      ofText? text = some c ↔ Configures ms c := by
    rw [hof h]
    exact ofMembers?_iff_configures (Toml.parse?_distinct h) ht
  refine ⟨?_, hiff hparse ht, ?_, ?_, ?_, ?_, admissible_default, ?_⟩
  · rw [hof hparse]
    exact exists_ofMembers?_iff (Toml.parse?_distinct hparse) ht
  · intro text' ms' hparse' ht' hgives
    apply Option.ext
    intro c
    rw [hiff hparse' ht', hiff hparse ht]
    exact Configures.congr hgives
  · intro c hc hadmissible
    rw [load_of_ofText? hc, check_of_admissible hadmissible]
    rfl
  · intro c hc hnot
    rcases check_cases c with ⟨hadmissible, _⟩ | ⟨fault, hblames, hcheck⟩
    · exact absurd hadmissible hnot
    · rw [load_of_ofText? hc, hcheck]
      exact ⟨fault, hblames, rfl⟩
  · intro hnone
    rw [load, hnone]
  · rw [load, check_of_admissible admissible_default]
    rfl

/-- Two sections with one value each keep all others; an unknown table changes nothing. -/
theorem load_of_two_sections : ∃ ms,
    Toml.parse? "[observability]\naktiviert = false\n[spare]\n[server]\nname = \"Hall\"\n" = some ms ∧
    Tabular ms ∧
    load (.text "[observability]\naktiviert = false\n[spare]\n[server]\nname = \"Hall\"\n") =
      .ok { server := { name := "Hall" }, observability := { enabled := false } } := by
  have hparse : Toml.parse? "[observability]\naktiviert = false\n[spare]\n[server]\nname = \"Hall\"\n" =
      some [("observability", .table .header [("aktiviert", .boolean false)]), ("spare", .table .header []),
        ("server", .table .header [("name", .string "Hall")])] := by cbv
  have htabular : Tabular [("observability", .table .header [("aktiviert", .boolean false)]),
      ("spare", .table .header []), ("server", .table .header [("name", .string "Hall")])] := by
    intro f v hv
    simp only [List.mem_cons, Prod.mk.injEq, List.not_mem_nil, or_false] at hv
    rcases hv with ⟨_, rfl⟩ | ⟨_, rfl⟩ | ⟨_, rfl⟩ <;> exact ⟨_, _, rfl⟩
  obtain ⟨_, _, _, hload, _⟩ := fields_override_independently hparse htabular
  exact ⟨_, hparse, htabular, hload _ (by cbv) ⟨by decide, by decide, by decide, .inl rfl⟩⟩

end Configuration

end Rostrum
