import Mathlib.Algebra.GroupWithZero.Nat
import Mathlib.Data.List.Nodup
import Gateway.Config.Encode

/-! Configurations that were written are read back as they were. What can keep one from being written
is a number of more than sixty-three bits. -/
namespace Gateway

namespace Toml.Table
variable {α : Type} {t u : Table} {key : String} {o : Option α}
  {encode : α → Value} {decode : Value → Option α}

lemma lookup_entry (key : String) (e : String × Value) (t : Table) :
    List.lookup key (e :: t) = if key = e.1 then some e.2 else t.lookup key := by
  obtain ⟨k, v⟩ := e
  by_cases same : key = k
  · simp [same]
  · simp [List.lookup_cons, beq_false_of_ne same, same]

/-- What stands under a key is read as a value. -/
def Reads (t : Table) (key : String) (decode : Value → Option α) (a : α) : Prop :=
  ∃ v, t.lookup key = some v ∧ decode v = some a

lemma Reads.field?_eq {a d : α} (h : t.Reads key decode a) : t.field? key decode d = some a := by
  obtain ⟨v, found, reads⟩ := h
  rw [field?, found]
  exact reads

lemma optional?_of_lookup (reads : ∀ a, decode (encode a) = some a)
    (found : t.lookup key = o.map encode) : t.optional? key decode = some o := by
  rw [optional?, field?, found]
  cases o with
  | none => rfl
  | some a => exact congrArg (Option.map some) (reads a)

/-- Entries under different keys may stand in any order. -/
lemma lookup_perm (h : t.Perm u) (distinct : (t.map Prod.fst).Nodup) :
    t.lookup key = u.lookup key := by
  induction h with
  | nil => rfl
  | cons e rest ih =>
    rw [List.map_cons, List.nodup_cons] at distinct
    rw [lookup_entry, lookup_entry, ih distinct.2]
  | swap e f rest =>
    have ne : f.1 ≠ e.1 := by simp_all
    simp only [lookup_entry]
    by_cases first : key = e.1
    · rw [if_pos first, if_pos first, if_neg fun second => ne (second.symm.trans first)]
    · rw [if_neg first, if_neg first]
  | trans first second ih ih' =>
    exact (ih distinct).trans (ih' ((first.map Prod.fst).nodup distinct))

end Toml.Table

namespace Config
open Toml (Value Table)

section Numbers
variable {β : Type} {n most : Nat} {b : β} {f : Value → Option β}

lemma natural?_integer (h : n ≤ most) : Value.natural? most (.integer n) = some n := by
  simp [Value.natural?, Value.integer?, h]

lemma decodeNumber_integer (h : n ≤ maxNumber) : decodeNumber (.integer n) = some n :=
  natural?_integer h

lemma decodeSocketNumber_integer (n : UInt16) : decodeSocketNumber (.integer n.toNat) = some n := by
  rw [decodeSocketNumber, natural?_integer (Nat.le_of_lt_succ n.toNat_lt), Option.map_some,
    UInt16.ofNat_toNat]

lemma decodeByte_integer (n : UInt8) : decodeByte (.integer n.toNat) = some n := by
  rw [decodeByte, natural?_integer (Nat.le_of_lt_succ n.toNat_lt), Option.map_some,
    UInt8.ofNat_toNat]

lemma bind_encodeNumber_eq_none_iff :
    (encodeNumber n >>= f) = none ↔ maxNumber < n ∨ f (.integer n) = none := by
  unfold encodeNumber
  split
  · next fits => simp [Nat.not_lt.mpr fits]
  · next large => simp [Nat.not_le.mp large]

lemma bind_encodeNumber_eq_some_iff :
    (encodeNumber n >>= f) = some b ↔ n ≤ maxNumber ∧ f (.integer n) = some b := by
  unfold encodeNumber
  split
  · next fits => simp [fits]
  · next large => simp [large]

end Numbers

section Lists
variable {α β : Type}

lemma mapM_map_of_reads {encode : α → β} {decode : β → Option α} {list : List α}
    (reads : ∀ a ∈ list, decode (encode a) = some a) :
    (list.map encode).mapM decode = some list := by
  induction list with
  | nil => rfl
  | cons a rest ih =>
    have first := reads a List.mem_cons_self
    have others := ih fun b hb => reads b (List.mem_cons_of_mem _ hb)
    simp [List.mapM_cons, first, others]

lemma decodeList_array (encode : α → Value) {decode : Value → Option α}
    (reads : ∀ a, decode (encode a) = some a) (list : List α) :
    decodeList decode (.array (list.map encode)) = some list :=
  mapM_map_of_reads fun a _ => reads a

lemma decodeTexts_encodeTexts (texts : List String) : decodeTexts (encodeTexts texts) = some texts :=
  decodeList_array .string (fun _ => rfl) texts

end Lists

section Sections

lemma lookup_optionalEntry {α : Type} (key other : String) (encode : α → Value) (o : Option α) :
    (optionalEntry key encode o).lookup other = if other = key then o.map encode else none := by
  cases o with
  | none => simp [optionalEntry]
  | some a => exact Table.lookup_entry other (key, encode a) []

lemma fields?_table (names : List String) (t : Table) :
    (Value.table t).fields? names = some t := rfl

lemma decode_boolean (b : Bool) : Value.boolean? (.boolean b) = some b := rfl

lemma decode_string (s : String) : Value.string? (.string s) = some s := rfl

lemma Tls.decode_encode (t : Tls) : Tls.decode t.encode = some t := by
  simp [decode, encode, fields?_table, Table.required?, Table.lookup_entry, Value.string?]

lemma Listener.decode_encode (l : Listener) : Listener.decode l.encode = some l := by
  simp [decode, encode, fields?_table, Table.field?, Table.lookup_entry, lookup_optionalEntry,
    Value.string?, Value.boolean?, decodeSocketNumber_integer,
    Table.optional?_of_lookup (o := l.tls) Tls.decode_encode]

lemma LogFormat.decode_text (f : LogFormat) : LogFormat.decode (.string f.text) = some f := by
  cases f <;> rfl

lemma Logging.decode_encode (l : Logging) : Logging.decode l.encode = some l := by
  simp [decode, encode, fields?_table, Table.field?, Table.lookup_entry, Value.string?,
    LogFormat.decode_text, decodeByte_integer, decodeTexts_encodeTexts]

lemma Metrics.decode_encode (m : Metrics) : Metrics.decode m.encode = some m := by
  simp [decode, encode, fields?_table, Table.field?, Table.lookup_entry, Value.string?,
    Value.boolean?]

lemma StaticMount.decode_encode (m : StaticMount) : StaticMount.decode m.encode = some m := by
  simp [decode, encode, fields?_table, Table.field?, Table.required?, Table.lookup_entry,
    Value.string?]

lemma decodeUser_encodeUser (u : UserEntry) : decodeUser (encodeUser u) = some u := by
  simp [decodeUser, encodeUser, fields?_table, Table.field?, Table.required?, Table.lookup_entry,
    Value.string?, decodeTexts_encodeTexts]

lemma decodePermission_encodePermission (p : PermissionEntry) :
    decodePermission (encodePermission p) = some p := by
  simp [decodePermission, encodePermission, fields?_table, Table.field?, Table.required?,
    Table.lookup_entry, Value.string?, decodeTexts_encodeTexts]

lemma decodeVeto_encodeVeto (v : VetoEntry) : decodeVeto (encodeVeto v) = some v := by
  simp [decodeVeto, encodeVeto, fields?_table, Table.required?, Table.lookup_entry, Value.string?,
    decodeTexts_encodeTexts]

lemma Tokens.decode_of_encode {t : Tokens} {v : Value} (h : t.encode = some v) :
    Tokens.decode v = some t := by
  simp only [encode, bind_encodeNumber_eq_some_iff, Option.pure_def, Option.some.injEq] at h
  obtain ⟨fits, rfl⟩ := h
  simp [decode, fields?_table, Table.field?, Table.lookup_entry, Value.boolean?,
    decodeNumber_integer fits]

end Sections

section Plugins
variable {a : PluginArgs}

/-- What a plugin has of its own is said under keys of its own. -/
def PluginArgs.KeysFree (a : PluginArgs) : Prop := ∀ e ∈ a.extra, e.1 ∉ ownKeys

lemma PluginArgs.KeysFree.lookup (free : a.KeysFree) {key : String} (own : key ∈ ownKeys) :
    a.extra.lookup key = none := by
  refine List.lookup_eq_none_iff.mpr fun e he => bne_iff_ne.mpr fun same => ?_
  exact free e he (same ▸ own)

lemma optionalEntry_own {α : Type} {key : String} (own : key ∈ PluginArgs.ownKeys)
    (encode : α → Value) (o : Option α) :
    (optionalEntry key encode o).filter (fun e => e.1 ∉ PluginArgs.ownKeys) = [] := by
  cases o <;> simp [optionalEntry, own]

lemma PluginArgs.KeysFree.decode_encode (free : a.KeysFree) :
    PluginArgs.decode a.encode = some a := by
  have extra : a.extra.filter (fun e => e.1 ∉ ownKeys) = a.extra :=
    List.filter_eq_self.mpr fun e he => decide_eq_true (free e he)
  have enabled : a.extra.lookup "enabled" = none := free.lookup (by decide)
  have secured : a.extra.lookup "secured" = none := free.lookup (by decide)
  have uri : a.extra.lookup "uri" = none := free.lookup (by decide)
  simp only [decode, encode, Value.entries?, Option.bind_eq_bind, Option.bind_some,
    List.filter_append]
  rw [extra, optionalEntry_own (by decide), optionalEntry_own (by decide),
    optionalEntry_own (by decide)]
  simp [List.lookup_append, lookup_optionalEntry, enabled, secured, uri,
    Table.optional?_of_lookup (o := a.enabled) decode_boolean,
    Table.optional?_of_lookup (o := a.secured) decode_boolean,
    Table.optional?_of_lookup (o := a.uri) decode_string]

end Plugins

section Proxies

lemma ProxyPass.decode_encode (p : ProxyPass) : ProxyPass.decode p.encode = some p := by
  cases p <;> rfl

/-- The whole numbers among the settings of a proxy. -/
def Proxy.numbers (p : Proxy) : List Nat :=
  [p.connections, p.maxQueueSize, p.softMaxConnections, p.retrySeconds]

lemma Proxy.encode_eq_none_iff (p : Proxy) :
    p.encode = none ↔ ∃ n ∈ p.numbers, maxNumber < n := by
  simp only [encode, numbers, bind_encodeNumber_eq_none_iff]
  simp

lemma Proxy.decode_of_encode {p : Proxy} {v : Value} (h : p.encode = some v) :
    Proxy.decode v = some p := by
  simp only [encode, bind_encodeNumber_eq_some_iff, Option.pure_def, Option.some.injEq] at h
  obtain ⟨connections, queue, soft, retry, rfl⟩ := h
  simp [decode, fields?_table, Table.field?, List.lookup_append, Table.lookup_entry,
    lookup_optionalEntry, Value.integer?, Value.boolean?, decodeNumber_integer, connections, queue,
    soft, retry, Table.optional?_of_lookup (o := p.location) decode_string,
    Table.optional?_of_lookup (o := p.name) decode_string,
    Table.optional?_of_lookup (o := p.pass) ProxyPass.decode_encode]

/-- Only what stands under each key counts. -/
lemma Proxy.decode_congr {t u : Table} (same : ∀ key, t.lookup key = u.lookup key) :
    Proxy.decode (.table t) = Proxy.decode (.table u) := by
  simp only [decode, fields?_table, Option.bind_eq_bind, Option.bind_some, Table.optional?,
    Table.field?, same]

lemma sublist_optionalEntry {α : Type} (key : String) (encode : α → Value) (o : Option α) :
    ((optionalEntry key encode o).map Prod.fst).Sublist [key] := by
  cases o with
  | none => exact List.nil_sublist _
  | some a => exact List.Sublist.refl _

lemma Proxy.table_of_encode {p : Proxy} {v : Value} (h : p.encode = some v) :
    ∃ t, v = .table t ∧ (t.map Prod.fst).Nodup := by
  simp only [encode, bind_encodeNumber_eq_some_iff, Option.pure_def, Option.some.injEq] at h
  obtain ⟨connections, queue, soft, retry, rfl⟩ := h
  refine ⟨_, rfl, ?_⟩
  have keys := ((sublist_optionalEntry "location" .string p.location).append
    (sublist_optionalEntry "proxy-pass" ProxyPass.encode p.pass)).append
    (sublist_optionalEntry "name" .string p.name)
  simp only [List.map_append]
  refine (keys.append (List.Sublist.refl _)).nodup ?_
  simp

/-- The entries of an added proxy are put in the order of their keys. -/
lemma Proxy.decode_sorted {p : Proxy} {v : Value} (h : p.encode = some v) :
    Proxy.decode v.sorted = some p := by
  obtain ⟨t, rfl, distinct⟩ := table_of_encode h
  have reads := decode_of_encode h
  rw [← reads]
  exact (decode_congr fun key =>
    Table.lookup_perm (List.mergeSort_perm t _).symm distinct).symm

end Proxies

/-- The whole numbers of a configuration's own. Those in values that are kept as they stand have
sixty-four bits with their sign. -/
def numbers (c : Config) : List Nat :=
  [c.listener.httpNumber.toNat, c.listener.httpsNumber.toNat, c.requestsLimit, c.bufferSize,
    c.maxContentSize, c.requestTimeout, c.shutdownTimeout, c.logging.dumpLevel.toNat,
    c.tokens.ttlMinutes]

lemma encode_eq_none_iff (c : Config) : c.encode = none ↔ ∃ n ∈ c.numbers, maxNumber < n := by
  have http : ¬maxNumber < c.listener.httpNumber.toNat :=
    Nat.not_lt.mpr (Nat.le_of_lt (Nat.lt_trans c.listener.httpNumber.toNat_lt (by decide)))
  have https : ¬maxNumber < c.listener.httpsNumber.toNat :=
    Nat.not_lt.mpr (Nat.le_of_lt (Nat.lt_trans c.listener.httpsNumber.toNat_lt (by decide)))
  have level : ¬maxNumber < c.logging.dumpLevel.toNat :=
    Nat.not_lt.mpr (Nat.le_of_lt (Nat.lt_trans c.logging.dumpLevel.toNat_lt (by decide)))
  simp only [encode, Tokens.encode, bind_assoc, bind_encodeNumber_eq_none_iff]
  simp [numbers, http, https, level]

/-- A table with all sections of a configuration. -/
structure ReadIn (c : Config) (t : Table) : Prop where
  instanceName : t.Reads "instance-name" Value.string? c.instanceName
  listener : t.Reads "listener" Listener.decode c.listener
  requestsLimit : t.Reads "requests-limit" decodeNumber c.requestsLimit
  bufferSize : t.Reads "buffer-size" decodeNumber c.bufferSize
  maxContentSize : t.Reads "max-content-size" decodeNumber c.maxContentSize
  requestTimeout : t.Reads "request-timeout-secs" decodeNumber c.requestTimeout
  shutdownTimeout : t.Reads "shutdown-timeout-secs" decodeNumber c.shutdownTimeout
  logging : t.Reads "logging" Logging.decode c.logging
  metrics : t.Reads "metrics" Metrics.decode c.metrics
  proxies : t.Reads "proxies" Value.array? c.proxies
  mounts : t.Reads "static-resources" (decodeList StaticMount.decode) c.mounts
  pluginArgs : t.Reads "plugins-args" decodePluginArgs c.pluginArgs
  users : t.Reads "users" (decodeList decodeUser) c.users
  permissions : t.Reads "acl" (decodeList decodePermission) c.permissions
  vetoes : t.Reads "method-vetoes" (decodeList decodeVeto) c.vetoes
  tokens : t.Reads "token-manager" Tokens.decode c.tokens

lemma ReadIn.decode_eq {c : Config} {t : Table} (h : c.ReadIn t) :
    decode (.table t) = some c := by
  unfold decode
  rw [fields?_table, Option.bind_eq_bind, Option.bind_some]
  dsimp only
  rw [h.instanceName.field?_eq, h.listener.field?_eq, h.requestsLimit.field?_eq,
    h.bufferSize.field?_eq, h.maxContentSize.field?_eq, h.requestTimeout.field?_eq,
    h.shutdownTimeout.field?_eq, h.logging.field?_eq, h.metrics.field?_eq, h.proxies.field?_eq,
    h.mounts.field?_eq, h.pluginArgs.field?_eq, h.users.field?_eq, h.permissions.field?_eq,
    h.vetoes.field?_eq, h.tokens.field?_eq]
  rfl

lemma readIn_of_encode {c : Config} {t : Table} (free : ∀ e ∈ c.pluginArgs, e.2.KeysFree)
    (h : c.encode = some t) : c.ReadIn t := by
  simp only [encode, bind_encodeNumber_eq_some_iff] at h
  obtain ⟨requests, buffer, content, request, shutdown, h⟩ := h
  obtain ⟨tokens, encoded, h⟩ := Option.bind_eq_some_iff.mp h
  obtain rfl := Option.some.inj h
  exact {
    instanceName := ⟨_, rfl, rfl⟩
    listener := ⟨_, rfl, c.listener.decode_encode⟩
    requestsLimit := ⟨_, rfl, decodeNumber_integer requests⟩
    bufferSize := ⟨_, rfl, decodeNumber_integer buffer⟩
    maxContentSize := ⟨_, rfl, decodeNumber_integer content⟩
    requestTimeout := ⟨_, rfl, decodeNumber_integer request⟩
    shutdownTimeout := ⟨_, rfl, decodeNumber_integer shutdown⟩
    logging := ⟨_, rfl, c.logging.decode_encode⟩
    metrics := ⟨_, rfl, c.metrics.decode_encode⟩
    proxies := ⟨_, rfl, rfl⟩
    mounts := ⟨_, rfl, decodeList_array _ StaticMount.decode_encode c.mounts⟩
    pluginArgs := ⟨_, rfl, mapM_map_of_reads fun e he => by simp [(free e he).decode_encode]⟩
    users := ⟨_, rfl, decodeList_array _ decodeUser_encodeUser c.users⟩
    permissions := ⟨_, rfl, decodeList_array _ decodePermission_encodePermission c.permissions⟩
    vetoes := ⟨_, rfl, decodeList_array _ decodeVeto_encodeVeto c.vetoes⟩
    tokens := ⟨_, rfl, Tokens.decode_of_encode encoded⟩ }

lemma addProxy_eq_none_iff (c : Config) (p : Proxy) :
    c.addProxy p = none ↔ ∃ n ∈ p.numbers, maxNumber < n := by
  rw [addProxy, Option.map_eq_none_iff, Proxy.encode_eq_none_iff]

lemma proxyEntries_of_addProxy {c d : Config} {p : Proxy} (h : c.addProxy p = some d) :
    d.proxyEntries = c.proxyEntries ++ [some p] := by
  obtain ⟨v, encoded, rfl⟩ := Option.map_eq_some_iff.mp h
  simp only [proxyEntries, List.map_append, List.map_singleton, Proxy.decode_sorted encoded]

/-- A configuration whose plugins keep to keys of their own can be written unless one of its numbers has
more than sixty-three bits, and what is written is read as the same configuration. A proxy can be
added on the same terms; it is then read as itself, behind the ones before it. -/
theorem reads_back (c : Config)
    (free : ∀ e ∈ c.pluginArgs, ∀ x ∈ e.2.extra, x.1 ∉ PluginArgs.ownKeys) :
    (c.encode = none ↔ ∃ n ∈ c.numbers, 2 ^ 63 - 1 < n) ∧
      (∀ t, c.encode = some t → decode (.table t) = some c) ∧
      ∀ p : Proxy, (c.addProxy p = none ↔ ∃ n ∈ p.numbers, 2 ^ 63 - 1 < n) ∧
        ∀ d, c.addProxy p = some d → d.proxyEntries = c.proxyEntries ++ [some p] :=
  ⟨c.encode_eq_none_iff, fun _ written => (readIn_of_encode free written).decode_eq,
    fun p => ⟨c.addProxy_eq_none_iff p, fun _ added => proxyEntries_of_addProxy added⟩⟩

/-- A configuration with a certificate, a proxy as it stands in the text and a plugin with arguments of
its own, to which a proxy with a backend that is no text is added. -/
theorem reads_back_with_extras :
    let ping : PluginArgs :=
      { enabled := some false, uri := some "/health",
        extra := [("greeting", .string "hi"), ("limits", .array [.integer (-1), .float .nan])] }
    let c : Config :=
      { listener := { httpsEnabled := true, tls := some ⟨"cert.pem", "key.pem"⟩ }
        requestsLimit := 2 ^ 63 - 1
        proxies := [.table [("location", .string "/one"), ("proxy-pass", .string "http://h0:80")],
          .datetime { date := some ⟨1979, 5, 27⟩ }]
        pluginArgs := [("ping", ping)] }
    let p : Proxy :=
      { location := some "/many", pass := some (.many [.string "http://h1:80", .integer 42]) }
    (∀ e ∈ c.pluginArgs, ∀ x ∈ e.2.extra, x.1 ∉ PluginArgs.ownKeys) ∧
      (∃ t, c.encode = some t ∧ decode (.table t) = some c) ∧
      ({ c with bufferSize := 2 ^ 63 } : Config).encode = none ∧
      ∃ d, c.addProxy p = some d ∧ d.proxyEntries = c.proxyEntries ++ [some p] := by
  intro ping c p
  have free : ∀ e ∈ c.pluginArgs, ∀ x ∈ e.2.extra, x.1 ∉ PluginArgs.ownKeys := by decide
  obtain ⟨-, reads, adds⟩ := reads_back c free
  obtain ⟨fails, -, -⟩ := reads_back { c with bufferSize := 2 ^ 63 } free
  exact ⟨free, ⟨_, rfl, reads _ rfl⟩, fails.mpr ⟨2 ^ 63, by decide, by decide⟩,
    _, rfl, (adds p).2 _ rfl⟩

end Config
end Gateway
