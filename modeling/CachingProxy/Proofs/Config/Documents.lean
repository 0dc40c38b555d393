import CachingProxy.Config.Document
import CachingProxy.Proofs.Json.Numbers
import CachingProxy.Proofs.Json.Printing
import CachingProxy.Proofs.Json.Records
import CachingProxy.Proofs.Net.Addresses

/-!
# Configurations as documents

The documents of a configuration give its settings in any order and among unknown members, and may
leave out a setting, an entry's port or a whole section that has its default.  Each of them is read
back as the configuration, and the document that is written is one of them.
-/

set_option autoImplicit false

namespace CachingProxy.Config

open CachingProxy.Json

/-! ## The forms of the settings -/

def serverForms (s : ServerSettings) : List FieldForm :=
  let default : ServerSettings := {}
  [ .defaulted "ip" (fun ip => WritesText ip.text) default.ip s.ip,
    .defaulted "port" (fun n => WritesNat n.toNat) default.port s.port,
    .defaulted "threads" (fun n => WritesNat n.toNat) default.threads s.threads,
    .defaulted "idle_timeout_ms" (fun n => WritesNat n.toNat) default.idleTimeoutMs s.idleTimeoutMs,
    .defaulted "connect_timeout_ms" (fun n => WritesNat n.toNat) default.connectTimeoutMs
      s.connectTimeoutMs,
    .defaulted "upgrade_insecure" WritesBool default.upgradeInsecure s.upgradeInsecure,
    .defaulted "secure_port" (fun n => WritesNat n.toNat) default.securePort s.securePort ]

def storeForms (s : StoreSettings) : List FieldForm :=
  let default : StoreSettings := {}
  [ .defaulted "max_entries" (fun n => WritesNat n.toNat) default.maxEntries s.maxEntries,
    .defaulted "disk_path" WritesText default.diskPath s.diskPath,
    .defaulted "write_queue_depth" (fun n => WritesNat n.toNat) default.writeQueueDepth
      s.writeQueueDepth ]

/-- The name and the origin of an entry are always given. -/
def entryForms (e : Domain.Entry) : List FieldForm :=
  [ .required "domain" WritesText e.domain,
    .required "origin_host" WritesText e.originHost,
    .defaulted "origin_port" (fun n => WritesNat n.toNat) (80 : UInt16) e.originPort ]

def workerForms (s : WorkerSettings) : List FieldForm :=
  let default : WorkerSettings := {}
  [ .defaulted "enabled" WritesBool default.enabled s.enabled,
    .defaulted "path" WritesText default.path s.path,
    .defaulted "route" WritesText default.route s.route ]

def peerForms (s : PeerSettings) : List FieldForm :=
  let default : PeerSettings := {}
  [ .defaulted "enabled" WritesBool default.enabled s.enabled,
    .defaulted "gateway_host" WritesText default.gatewayHost s.gatewayHost,
    .defaulted "gateway_port" (fun n => WritesNat n.toNat) default.gatewayPort s.gatewayPort,
    .defaulted "poll_interval_secs" (fun n => WritesNat n.toNat) default.pollIntervalSecs
      s.pollIntervalSecs ]

/-- The sections, whose unknown members have `foreign` names. -/
def sectionForms (foreign : Bytes → Prop) (config : Config) : List FieldForm :=
  [ .defaulted "server" (fun s => WritesRecord foreign (serverForms s)) {} config.server,
    .defaulted "cache" (fun s => WritesRecord foreign (storeForms s)) {} config.cache,
    .defaulted "protected_domains" (WritesList fun e => WritesRecord foreign (entryForms e)) []
      config.protectedDomains,
    .defaulted "service_worker" (fun s => WritesRecord foreign (workerForms s)) {}
      config.serviceWorker,
    .defaulted "peer_network" (fun s => WritesRecord foreign (peerForms s)) {}
      config.peerNetwork ]

/-- A document of a configuration, between blanks. -/
def Document (foreign : Bytes → Prop) (config : Config) (document : Bytes) : Prop :=
  ∃ before record after, Blank before ∧ Blank after ∧
    WritesRecord foreign (sectionForms foreign config) record ∧
    document = before ++ (record ++ after)

/-! ## The settings as they are read -/

def serverSlots (s : ServerSettings) : List (Slot ServerSettings {}) := [
  .defaulted s "ip" (reads_via IpAddress.ofText?_text) (·.ip) fun s ip => { s with ip },
  .defaulted s "port" reads_uInt16 (·.port) fun s port => { s with port },
  .defaulted s "threads" reads_uInt64 (·.threads) fun s threads => { s with threads },
  .defaulted s "idle_timeout_ms" reads_uInt64 (·.idleTimeoutMs) fun s idleTimeoutMs =>
    { s with idleTimeoutMs },
  .defaulted s "connect_timeout_ms" reads_uInt64 (·.connectTimeoutMs) fun s connectTimeoutMs =>
    { s with connectTimeoutMs },
  .defaulted s "upgrade_insecure" reads_bool (·.upgradeInsecure) fun s upgradeInsecure =>
    { s with upgradeInsecure },
  .defaulted s "secure_port" reads_uInt16 (·.securePort) fun s securePort => { s with securePort }]

theorem serverSlots_made (s : ServerSettings) : Slots {} s (serverSlots s) where
  distinct := by simp [serverSlots]
  apart := by simp [serverSlots, Slot.Apart]
  whole record agrees := by
    rcases record
    rcases s
    simpa [serverSlots] using agrees

theorem reads_server :
    Reads (readRecord serverMembers {}) fun s => WritesRecord Denotes (serverForms s) :=
  reads_record serverSlots_made fun _ => rfl

def storeSlots (s : StoreSettings) : List (Slot StoreSettings {}) := [
  .defaulted s "max_entries" reads_uInt64 (·.maxEntries) fun s maxEntries => { s with maxEntries },
  .defaulted s "disk_path" reads_text (·.diskPath) fun s diskPath => { s with diskPath },
  .defaulted s "write_queue_depth" reads_uInt64 (·.writeQueueDepth) fun s writeQueueDepth =>
    { s with writeQueueDepth }]

theorem storeSlots_made (s : StoreSettings) : Slots {} s (storeSlots s) where
  distinct := by simp [storeSlots]
  apart := by simp [storeSlots, Slot.Apart]
  whole record agrees := by
    rcases record
    rcases s
    simpa [storeSlots] using agrees

theorem reads_store :
    Reads (readRecord storeMembers {}) fun s => WritesRecord Denotes (storeForms s) :=
  reads_record storeSlots_made fun _ => rfl

def entrySlots (e : Domain.Entry) :
    List (Slot Domain.Entry { domain := "", originHost := "" }) := [
  .required e "domain" reads_text (·.domain) fun e domain => { e with domain },
  .required e "origin_host" reads_text (·.originHost) fun e originHost => { e with originHost },
  .defaulted e "origin_port" reads_uInt16 (·.originPort) fun e originPort => { e with originPort }]

theorem entrySlots_made (e : Domain.Entry) : Slots _ e (entrySlots e) where
  distinct := by simp [entrySlots]
  apart := by simp [entrySlots, Slot.Apart]
  whole record agrees := by
    rcases record
    rcases e
    simpa [entrySlots] using agrees

theorem reads_entries :
    Reads (readList readEntry) (WritesList fun e => WritesRecord Denotes (entryForms e)) :=
  reads_list (reads_record entrySlots_made fun _ => rfl) fun _ _ => begins_of_writesRecord

def workerSlots (s : WorkerSettings) : List (Slot WorkerSettings {}) := [
  .defaulted s "enabled" reads_bool (·.enabled) fun s enabled => { s with enabled },
  .defaulted s "path" reads_text (·.path) fun s path => { s with path },
  .defaulted s "route" reads_text (·.route) fun s route => { s with route }]

theorem workerSlots_made (s : WorkerSettings) : Slots {} s (workerSlots s) where
  distinct := by simp [workerSlots]
  apart := by simp [workerSlots, Slot.Apart]
  whole record agrees := by
    rcases record
    rcases s
    simpa [workerSlots] using agrees

theorem reads_worker :
    Reads (readRecord workerMembers {}) fun s => WritesRecord Denotes (workerForms s) :=
  reads_record workerSlots_made fun _ => rfl

def peerSlots (s : PeerSettings) : List (Slot PeerSettings {}) := [
  .defaulted s "enabled" reads_bool (·.enabled) fun s enabled => { s with enabled },
  .defaulted s "gateway_host" reads_text (·.gatewayHost) fun s gatewayHost =>
    { s with gatewayHost },
  .defaulted s "gateway_port" reads_uInt16 (·.gatewayPort) fun s gatewayPort =>
    { s with gatewayPort },
  .defaulted s "poll_interval_secs" reads_uInt64 (·.pollIntervalSecs) fun s pollIntervalSecs =>
    { s with pollIntervalSecs }]

theorem peerSlots_made (s : PeerSettings) : Slots {} s (peerSlots s) where
  distinct := by simp [peerSlots]
  apart := by simp [peerSlots, Slot.Apart]
  whole record agrees := by
    rcases record
    rcases s
    simpa [peerSlots] using agrees

theorem reads_peers :
    Reads (readRecord peerMembers {}) fun s => WritesRecord Denotes (peerForms s) :=
  reads_record peerSlots_made fun _ => rfl

def sectionSlots (config : Config) : List (Slot Config {}) := [
  .defaulted config "server" reads_server (·.server)
    fun c server => { c with server },
  .defaulted config "cache" reads_store (·.cache)
    fun c cache => { c with cache },
  .defaulted config "protected_domains" reads_entries (·.protectedDomains)
    fun c protectedDomains => { c with protectedDomains },
  .defaulted config "service_worker" reads_worker
    (·.serviceWorker) fun c serviceWorker => { c with serviceWorker },
  .defaulted config "peer_network" reads_peers (·.peerNetwork)
    fun c peerNetwork => { c with peerNetwork }]

theorem sectionSlots_made (config : Config) : Slots {} config (sectionSlots config) where
  distinct := by simp [sectionSlots]
  apart := by simp [sectionSlots, Slot.Apart]
  whole record agrees := by
    rcases record
    rcases config
    simpa [sectionSlots] using agrees

theorem reads_sections :
    Reads (readRecord members {}) fun c => WritesRecord Denotes (sectionForms Denotes c) :=
  reads_record sectionSlots_made fun _ => rfl

/-! ## Reading and writing -/

/-- A document is read as the configuration, whether it is valid or not. -/
theorem parse_document {config : Config} {document : Bytes}
    (form : Document Denotes config document) : parse document = .ok config := by
  obtain ⟨before, record, after, blanks, blanks', written, rfl⟩ := form
  have ends : Ends after := by simpa using ends_blank_append blanks' ends_nil
  have done : skipBlanks after = [] := by
    rw [← List.append_nil after, skipBlanks_append blanks']
    rfl
  rw [parse, reads_sections written blanks ends]
  simp only [bind, Except.bind, finish, done]

section

variable (foreign : Bytes → Prop)

theorem writes_server (s : ServerSettings) :
    WritesRecord foreign (serverForms s) (Bytes.ofText (print s.json)) := by
  refine writesRecord_print ?_ ?_
  · simp [Gives, serverForms]
  · simp [serverForms]

theorem writes_store (s : StoreSettings) :
    WritesRecord foreign (storeForms s) (Bytes.ofText (print s.json)) := by
  refine writesRecord_print ?_ ?_
  · simp [Gives, storeForms]
  · simp [storeForms]

theorem writes_entry (e : Domain.Entry) :
    WritesRecord foreign (entryForms e) (Bytes.ofText (print (entryJson e))) := by
  refine writesRecord_print ?_ ?_
  · simp [Gives, entryForms]
  · simp [entryForms]

theorem writes_worker (s : WorkerSettings) :
    WritesRecord foreign (workerForms s) (Bytes.ofText (print s.json)) := by
  refine writesRecord_print ?_ ?_
  · simp [Gives, workerForms]
  · simp [workerForms]

theorem writes_peers (s : PeerSettings) :
    WritesRecord foreign (peerForms s) (Bytes.ofText (print s.json)) := by
  refine writesRecord_print ?_ ?_
  · simp [Gives, peerForms]
  · simp [peerForms]

theorem writes_sections (config : Config) :
    WritesRecord foreign (sectionForms foreign config) (Bytes.ofText (print config.json)) := by
  refine writesRecord_print ?_ ?_
  · simp [Gives, sectionForms, writes_server, writes_store, writes_worker, writes_peers,
      writesList_print (writes_entry foreign)]
  · simp [sectionForms]

theorem document_json (config : Config) :
    Document foreign config (Bytes.ofText (print config.json)) :=
  ⟨[], _, [], blank_nil, blank_nil, writes_sections foreign config,
    by rw [List.nil_append, List.append_nil]⟩

end

/-! ## Unknown members -/

def oneDomain : Config :=
  { protectedDomains := [{ domain := "example.com", originHost := "10.0.0.2" }] }

/-- A document of `oneDomain` that gives the domains alone, behind an unknown member. -/
def behindMember (key : Bytes) : Bytes :=
  123 :: (key ++ Bytes.ofText (":0,\"protected_domains\":" ++
    "[\x7b\"origin_host\":\"10.0.0.2\",\"domain\":\"example.com\"\x7d]\x7d"))

theorem document_behindMember {foreign : Bytes → Prop} {key : Bytes} (strange : foreign key)
    (apart : ∀ field ∈ sectionForms foreign oneDomain, ¬ WritesText field.name key) :
    Document foreign oneDomain (behindMember key) := by
  have start : Separates true [] := blank_nil
  have comma : Separates false [44] := ⟨[], [], blank_nil, blank_nil, rfl⟩
  have colon : Colon [58] := ⟨[], [], blank_nil, blank_nil, rfl⟩
  let entry : Domain.Entry := { domain := "example.com", originHost := "10.0.0.2" }
  have name : .required "domain" WritesText entry.domain ∈ entryForms entry := by
    simp [entryForms]
  have host : .required "origin_host" WritesText entry.originHost ∈ entryForms entry := by
    simp [entryForms]
  have fields : WritesFields foreign (entryForms entry) true ["origin_host", "domain"] _ :=
    .known start host (by decide) (writesText_printText _) colon (writesText_printText _) <|
    .known comma name (by decide) (writesText_printText _) colon (writesText_printText _)
      (.brace blank_nil)
  have record : WritesRecord foreign (entryForms entry) _ :=
    ⟨_, _, fields, by simp [entryForms, entry], rfl⟩
  have domains : WritesList (fun e => WritesRecord foreign (entryForms e)) [entry] _ :=
    ⟨_, .item start record (.bracket blank_nil), rfl⟩
  have listed : .defaulted "protected_domains"
      (WritesList fun e => WritesRecord foreign (entryForms e)) [] [entry] ∈
        sectionForms foreign oneDomain := by
    simp [sectionForms, oneDomain, entry]
  have digits : Digits [48] := ⟨List.cons_ne_nil _ _, List.forall_mem_singleton.mpr rfl⟩
  have zero : WellFormed [48] := .numeral
    ⟨[], [48], [], [], .inl rfl, ⟨digits, fun _ => rfl⟩, .inl rfl, .inl rfl, rfl⟩
  have sections : WritesFields foreign (sectionForms foreign oneDomain) true
      ["protected_domains"] _ :=
    .unknown start strange apart colon zero <|
    .known comma listed List.not_mem_nil (writesText_printText _) colon domains (.brace blank_nil)
  refine ⟨[], _, [], blank_nil, blank_nil, ⟨_, _, sections, ?_, rfl⟩, ?_⟩
  · simp [sectionForms, oneDomain]
  · rw [behindMember, List.nil_append, List.append_nil, List.nil_append]
    refine congrArg (fun tail => 123 :: (key ++ tail)) ?_
    simp only [FieldForm.defaulted, FieldForm.required]
    decide +kernel

/-- A document whose first member has a name with an unpaired surrogate at the end is refused,
whatever stands behind the name. -/
theorem ofJson_unpaired {high : Nat} {digits : Bytes} (unit : CodeUnit high digits)
    (isHigh : isHighSurrogate high = true) (rest : Bytes) :
    ofJson (123 :: 34 :: 92 :: 117 :: (digits ++ 34 :: rest)) = .error (.json .malformed) := by
  have first : nextMember true (34 :: 92 :: 117 :: (digits ++ 34 :: rest)) = .ok (true, _) :=
    nextMember_member (show Separates true [] from blank_nil) _
  have refused : parse (123 :: 34 :: 92 :: 117 :: (digits ++ 34 :: rest)) = .error .malformed := by
    rw [parse, readRecord, skipBlanks_cons (by decide)]
    simp only [readFieldsFrom, first, readQuoted_unpaired unit isHigh]
    rfl
  rw [ofJson, refused]

/-! ## Reading back -/

/-- A valid configuration is read back from each of its documents, of which the written one is
one. -/
theorem documents_read_back {config : Config} (valid : config.validate = .ok ()) :
    Document Denotes config (Bytes.ofText (print config.json)) ∧
      ∀ document, Document Denotes config document → ofJson document = .ok config := by
  refine ⟨document_json Denotes config, fun document form => ?_⟩
  rw [ofJson, parse_document form]
  simp only [valid]

theorem unknown_member_passed_over :
    oneDomain.validate = .ok () ∧
      Document Denotes oneDomain (behindMember (Bytes.ofText "\"note\"")) ∧
      ofJson (behindMember (Bytes.ofText "\"note\"")) = .ok oneDomain := by
  have valid : oneDomain.validate = .ok () := by decide +kernel
  have note : WritesText "note" (Bytes.ofText "\"note\"") := by
    rw [← show printText "note" = "\"note\"" by decide +kernel]
    exact writesText_printText "note"
  have form : Document Denotes oneDomain (behindMember (Bytes.ofText "\"note\"")) := by
    refine document_behindMember ⟨"note", note⟩ fun field listed written => ?_
    have same := written.unique note
    simp only [sectionForms, List.mem_cons, List.not_mem_nil, or_false] at listed
    rcases listed with rfl | rfl | rfl | rfl | rfl <;> exact absurd same (by decide)
  exact ⟨valid, form, (documents_read_back valid).2 _ form⟩

/-- A name that ends in an unpaired surrogate is a literal, but the document is refused. -/
theorem unpaired_name_refused :
    oneDomain.validate = .ok () ∧
      Document Literal oneDomain (behindMember (Bytes.ofText "\"\\ud800\"")) ∧
      ofJson (behindMember (Bytes.ofText "\"\\ud800\"")) = .error (.json .malformed) := by
  have unit : CodeUnit 0xD800 [100, 56, 48, 48] :=
    .digits (a := 13) (b := 8) (c := 0) (d := 0) (by decide) (by decide) (by decide) (by decide)
  have name : Bytes.ofText "\"\\ud800\"" = 34 :: 92 :: 117 :: ([100, 56, 48, 48] ++ [34]) := by
    decide +kernel
  have literal : Literal (34 :: 92 :: 117 :: ([100, 56, 48, 48] ++ [34])) :=
    ⟨_, .cons (.unit unit) .nil, rfl⟩
  rw [name]
  refine ⟨by decide +kernel, document_behindMember literal fun field _ => ?_, ?_⟩
  · exact not_writesText_unpaired unit (by decide) field.name
  · exact ofJson_unpaired unit (by decide) _

end CachingProxy.Config
