import CachingProxy.Peers.Gateway
import CachingProxy.Proofs.Json.Parsing

/-!
# Updates of the edge nodes

The list of nodes is replaced, or read from a document that is given or polled.  What a document
publishes is said with the grammar alone (`EdgeNodes.Publishes`).  An update either sets a list as a
whole or is told to have failed and leaves everything as it was, so after any run the list is the
one that was set last (`EdgeNodes.updates_all_or_nothing`).
-/

set_option autoImplicit false

namespace CachingProxy

namespace EdgeNodes

open Json (Value)

/-! ## What a document publishes -/

inductive AddressOf (node : Value) : String → Prop where
  | texts {ip port : String} (host : node.find? ["ip_address", "data"] = some (.text ip))
      (service : node.find? ["content_port", "data"] = some (.text port)) :
      AddressOf node (ip ++ ":" ++ port)

/-- The addresses of some nodes, in order.  A node without an address is left out, and no other. -/
inductive Addresses : List (String × Value) → List String → Prop where
  | nil : Addresses [] []
  | listed {key : String} {node : Value} {members : List (String × Value)} {address : String}
      {nodes : List String} (has : AddressOf node address) (more : Addresses members nodes) :
      Addresses ((key, node) :: members) (address :: nodes)
  | leftOut {key : String} {node : Value} {members : List (String × Value)} {nodes : List String}
      (malformed : ∀ address, ¬ AddressOf node address) (more : Addresses members nodes) :
      Addresses ((key, node) :: members) nodes

/-- The text is a document with a node map, whose members are in the order of their keys. -/
def HasNodeMap (text : String) (members : List (String × Value)) : Prop :=
  ∃ document, Json.WritesDocument .bounded Json.maxDepth document (Bytes.ofText text) ∧
    document.find? ["response", "node_data_map"] = some (.object members)

/-- The nodes that a text publishes. -/
def Publishes (text : String) (nodes : List String) : Prop :=
  ∃ members, HasNodeMap text members ∧ Addresses members nodes

theorem bind_text?_eq_some_iff {found : Option Value} {text : String} :
    found.bind Value.text? = some text ↔ found = some (.text text) := by
  cases found with
  | none => exact iff_of_false (by rintro ⟨⟩) (by rintro ⟨⟩)
  | some value => cases value <;> simp [Value.text?]

theorem address?_eq_some_iff {node : Value} {address : String} :
    address? node = some address ↔ AddressOf node address := by
  constructor
  · intro found
    obtain ⟨ip, host, rest⟩ := Option.bind_eq_some_iff.mp found
    obtain ⟨port, service, whole⟩ := Option.bind_eq_some_iff.mp rest
    obtain rfl := Option.some.inj whole
    exact .texts (bind_text?_eq_some_iff.mp host) (bind_text?_eq_some_iff.mp service)
  · rintro ⟨host, service⟩
    rw [address?, host, service]
    rfl

theorem address?_eq_none {node : Value} (malformed : ∀ address, ¬ AddressOf node address) :
    address? node = none :=
  Option.eq_none_iff_forall_ne_some.mpr fun address found =>
    malformed address (address?_eq_some_iff.mp found)

theorem addresses_iff {members : List (String × Value)} {nodes : List String} :
    Addresses members nodes ↔ (members.filterMap fun entry => address? entry.2) = nodes := by
  constructor
  · intro addresses
    induction addresses with
    | nil => rfl
    | listed has _ ih =>
        rw [List.filterMap_cons, ih]
        simp only [address?_eq_some_iff.mpr has]
    | leftOut malformed _ ih =>
        rw [List.filterMap_cons, ih]
        simp only [address?_eq_none malformed]
  · rintro rfl
    induction members with
    | nil => exact .nil
    | cons entry members ih =>
        rw [List.filterMap_cons]
        cases found : address? entry.2 with
        | none =>
            refine .leftOut (fun address has => ?_) ih
            rw [address?_eq_some_iff.mpr has] at found
            cases found
        | some address => exact .listed (address?_eq_some_iff.mp found) ih

theorem addresses_leftOut {before after : List (String × Value)} {key : String} {node : Value}
    {nodes : List String} (malformed : ∀ address, ¬ AddressOf node address) :
    Addresses (before ++ (key, node) :: after) nodes ↔ Addresses (before ++ after) nodes := by
  have missed := address?_eq_none malformed
  rw [addresses_iff, addresses_iff, List.filterMap_append, List.filterMap_append,
    List.filterMap_cons]
  simp only [missed]

theorem nodeMap?_eq_some_iff {document : Value} {members : List (String × Value)} :
    nodeMap? document = some members ↔
      document.find? ["response", "node_data_map"] = some (.object members) := by
  rw [nodeMap?, Option.bind_eq_some_iff]
  constructor
  · rintro ⟨value, found, listed⟩
    rw [found]
    cases value <;> simp_all [Value.members?]
  · intro found
    exact ⟨_, found, rfl⟩

theorem readState_ok_iff {text : String} {nodes : List String} :
    readState (Bytes.ofText text) = .ok nodes ↔ Publishes text nodes := by
  have parsed (document : Value) : Json.parse (Bytes.ofText text) = .ok document ↔
      Json.WritesDocument .bounded Json.maxDepth document (Bytes.ofText text) :=
    Json.parse_ok_iff ⟨text, rfl⟩
  rw [readState]
  constructor
  · intro read
    split at read
    · cases read
    · rename_i document accepted
      split at read
      · cases read
      · rename_i members listed
        exact ⟨members, ⟨document, (parsed document).mp accepted, nodeMap?_eq_some_iff.mp listed⟩,
          addresses_iff.mpr (Except.ok.inj read)⟩
  · rintro ⟨members, ⟨document, written, listed⟩, addresses⟩
    rw [(parsed document).mpr written]
    simp only [nodeMap?_eq_some_iff.mpr listed, addresses_iff.mp addresses]

theorem exists_publishes_iff {text : String} :
    (∃ nodes, Publishes text nodes) ↔ ∃ members, HasNodeMap text members := by
  constructor
  · rintro ⟨nodes, members, listed, -⟩
    exact ⟨members, listed⟩
  · rintro ⟨members, listed⟩
    exact ⟨_, members, listed, addresses_iff.mpr rfl⟩

/-! ## Documents as texts -/

def nodeText (port ip : String) : String :=
  Json.objectText [("content_port", Json.objectText [("data", port)]),
    ("ip_address", Json.objectText [("data", ip)])]

def nodeValue (port ip : Value) : Value :=
  .object [("content_port", .object [("data", port)]), ("ip_address", .object [("data", ip)])]

def documentText (nodeMap version : String) : String :=
  Json.objectText [("response", Json.objectText [("node_data_map", nodeMap)]),
    ("version", version)]

section

variable {dialect : Json.Dialect} {depth : Nat}

theorem writesValue_nodeText
    (texts : ∀ text bytes, Json.WritesText text bytes → dialect.text text bytes)
    (port ip : String) :
    Json.WritesValue dialect (depth + 2) (nodeValue (.text port) (.text ip))
      (Bytes.ofText (nodeText (Json.printText port) (Json.printText ip))) := by
  have data (text : String) : Json.WritesValue dialect (depth + 1) (.object [("data", .text text)])
      (Bytes.ofText (Json.objectText [("data", Json.printText text)])) :=
    Json.writesValue_objectText_single texts "data"
      (.text (texts _ _ (Json.writesText_printText text)))
  refine Json.writesValue_objectText texts
    [("content_port", .object [("data", .text port)],
        Json.objectText [("data", Json.printText port)]),
      ("ip_address", .object [("data", .text ip)],
        Json.objectText [("data", Json.printText ip)])] ?_ (Json.listing_self ?_)
  · exact List.forall_mem_cons.mpr ⟨data port, List.forall_mem_singleton.mpr (data ip)⟩
  · exact List.pairwise_pair.mpr (show "content_port" < "ip_address" by decide)

theorem writesDocument_documentText
    (texts : ∀ text bytes, Json.WritesText text bytes → dialect.text text bytes)
    {nodeMap version : String} {members : List (String × Value)} {other : Value}
    (map : Json.WritesValue dialect depth (.object members) (Bytes.ofText nodeMap))
    (more : Json.WritesValue dialect (depth + 1) other (Bytes.ofText version)) :
    ∃ document, Json.WritesDocument dialect (depth + 2) document
        (Bytes.ofText (documentText nodeMap version)) ∧
      document.find? ["response", "node_data_map"] = some (.object members) := by
  have response : Json.WritesValue dialect (depth + 1)
      (.object [("node_data_map", .object members)])
      (Bytes.ofText (Json.objectText [("node_data_map", nodeMap)])) :=
    Json.writesValue_objectText_single texts "node_data_map" map
  have whole := Json.writesValue_objectText texts
    [("response", .object [("node_data_map", .object members)],
        Json.objectText [("node_data_map", nodeMap)]), ("version", other, version)]
    (List.forall_mem_cons.mpr ⟨response, List.forall_mem_singleton.mpr more⟩)
    (Json.listing_self (List.pairwise_pair.mpr (show "response" < "version" by decide)))
  refine ⟨_, ⟨[], _, [], Json.blank_nil, whole, Json.blank_nil, ?_⟩, rfl⟩
  rw [List.nil_append, List.append_nil]
  rfl

end

theorem ofText_documentText (nodeMap version : String) :
    Bytes.ofText (documentText nodeMap version) =
      123 :: (Bytes.ofText (Json.printText "response" ++ ":" ++
        Json.objectText [("node_data_map", nodeMap)]) ++
          44 :: (Bytes.ofText (Json.printText "version" ++ ":") ++
            (Bytes.ofText version ++ [125]))) := by
  have pair (one other : Bytes) :
      Json.separated 125 true [one, other] = one ++ 44 :: (other ++ [125]) := rfl
  rw [documentText, Json.ofText_objectText, List.map_cons, List.map_singleton, pair,
    Json.ofText_append (Json.printText "version" ++ ":"), List.append_assoc]

def nestedText : Nat → String
  | 0 => "null"
  | depth + 1 => "[" ++ nestedText depth ++ "]"

def nestedValue : Nat → Value
  | 0 => .null
  | depth + 1 => .list [nestedValue depth]

theorem writesValue_nested {dialect : Json.Dialect} (depth : Nat) :
    Json.WritesValue dialect depth (nestedValue depth) (Bytes.ofText (nestedText depth)) := by
  induction depth with
  | zero => exact .null
  | succ depth ih =>
      have brackets : Bytes.ofText "[" = [91] ∧ Bytes.ofText "]" = [93] := by decide
      rw [nestedText, Json.ofText_append, Json.ofText_append, brackets.1, brackets.2,
        List.append_assoc]
      have items : Json.WritesElements dialect depth true [nestedValue depth]
          ([] ++ (Bytes.ofText (nestedText depth) ++ ([] ++ [93]))) :=
        .item Json.blank_nil ih (.bracket Json.blank_nil)
      exact .list items

theorem ofText_nestedText (depth : Nat) : Bytes.ofText (nestedText depth) =
    List.replicate depth 91 ++ (Bytes.ofText "null" ++ List.replicate depth 93) := by
  induction depth with
  | zero => rfl
  | succ depth ih =>
      have brackets : Bytes.ofText "[" = [91] ∧ Bytes.ofText "]" = [93] := by decide
      rw [nestedText, Json.ofText_append, Json.ofText_append, brackets.1, brackets.2, ih,
        List.replicate_succ, List.replicate_succ']
      simp only [List.append_assoc, List.cons_append, List.nil_append]

/-- One key is given twice, first to a node that is none, and another key stands between. -/
def sample : String :=
  documentText (Json.objectText [("b", "null"),
    ("a", nodeText (Json.printText "8080") (Json.printText "10.0.0.1")),
    ("b", nodeText (Json.printText "80") (Json.printText "10.0.0.2"))]) "null"

theorem listing_sample (early late other : Value) :
    Json.Listing [("b", early), ("a", other), ("b", late)] [("a", other), ("b", late)] := by
  have ordered : [("a", other), ("b", late)].Pairwise fun x y : String × Value => x.1 < y.1 :=
    List.pairwise_pair.mpr (show "a" < "b" by decide)
  refine ⟨ordered, fun key value => ?_⟩
  rw [← Json.get?_ofEntries, ← Keyed.mem_iff_get? (Keyed.nodup_ofEntries _)]
  have last : Keyed.ofEntries [("b", early), ("a", other), ("b", late)] =
      [("b", late), ("a", other)] := by
    simp [Keyed.ofEntries, Keyed.put]
  rw [last]
  exact (List.Perm.swap ..).mem_iff

theorem addressOf_nodeValue (port ip : String) :
    AddressOf (nodeValue (.text port) (.text ip)) (ip ++ ":" ++ port) :=
  .texts rfl rfl

theorem publishes_sample : Publishes sample ["10.0.0.1:8080", "10.0.0.2:80"] := by
  have texts : ∀ text bytes, Json.WritesText text bytes → Json.Dialect.bounded.text text bytes :=
    fun _ _ written => written
  have node (port ip : String) : Json.WritesValue .bounded 124 (nodeValue (.text port) (.text ip))
      (Bytes.ofText (nodeText (Json.printText port) (Json.printText ip))) :=
    writesValue_nodeText texts port ip
  have map := Json.writesValue_objectText texts
    [("b", .null, "null"),
      ("a", nodeValue (.text "8080") (.text "10.0.0.1"),
        nodeText (Json.printText "8080") (Json.printText "10.0.0.1")),
      ("b", nodeValue (.text "80") (.text "10.0.0.2"),
        nodeText (Json.printText "80") (Json.printText "10.0.0.2"))]
    (List.forall_mem_cons.mpr ⟨.null, List.forall_mem_cons.mpr ⟨node "8080" "10.0.0.1",
      List.forall_mem_singleton.mpr (node "80" "10.0.0.2")⟩⟩) (listing_sample ..)
  obtain ⟨document, written, found⟩ := writesDocument_documentText texts map .null
  have addresses : ["10.0.0.1:8080", "10.0.0.2:80"] =
      ["10.0.0.1" ++ ":" ++ "8080", "10.0.0.2" ++ ":" ++ "80"] := by
    decide
  refine ⟨_, ⟨document, written, found⟩, ?_⟩
  rw [addresses]
  exact .listed (addressOf_nodeValue ..) (.listed (addressOf_nodeValue ..) .nil)

/-! ## Updates -/

inductive Update where
  | replace (nodes : List String)
  | apply (text : String)
  | poll (answer : Except String Gateway.Reply)

/-- The list that an update sets.  Only an answer of success whose document comes whole counts. -/
inductive Update.Sets : Update → List String → Prop where
  | replaced {nodes : List String} : Sets (.replace nodes) nodes
  | applied {text : String} {nodes : List String} (published : Publishes text nodes) :
      Sets (.apply text) nodes
  | polled {reply : Gateway.Reply} {body : Bytes} {nodes : List String}
      (success : reply.status.isSuccess = true) (whole : reply.body = .ok body)
      (published : Publishes (Utf8.lenient body) nodes) : Sets (.poll (.ok reply)) nodes

def Update.accepted? : Update → List String → Option Nat
  | .replace _, _ => none
  | .apply _, nodes => some nodes.length
  | .poll _, nodes => some nodes.length

def update (edge : EdgeNodes) : Update → Except ProxyError (Option Nat) × EdgeNodes
  | .replace nodes => (.ok none, ⟨nodes⟩)
  | .apply text => (edge.apply (Bytes.ofText text)).map (Except.map some) id
  | .poll answer => (Gateway.poll edge answer).map (Except.map some) id

def run (edge : EdgeNodes) (updates : List Update) : EdgeNodes :=
  updates.foldl (fun edge next => (edge.update next).2) edge

/-- An update sets a list as a whole, or it is told why it fails and changes nothing. -/
inductive Outcome (edge : EdgeNodes) (next : Update) :
    Except ProxyError (Option Nat) × EdgeNodes → Prop where
  | set {nodes : List String} (sets : next.Sets nodes) :
      Outcome edge next (.ok (next.accepted? nodes), ⟨nodes⟩)
  | failed {cause : ProxyError} (unset : ∀ nodes, ¬ next.Sets nodes) :
      Outcome edge next (.error cause, edge)

theorem sets_apply_iff {text : String} {nodes : List String} :
    (Update.apply text).Sets nodes ↔ Publishes text nodes := by
  constructor
  · intro sets
    cases sets with
    | applied published => exact published
  · exact .applied

theorem sets_poll_iff {reply : Gateway.Reply} {nodes : List String} :
    (Update.poll (.ok reply)).Sets nodes ↔ reply.status.isSuccess = true ∧
      ∃ body, reply.body = .ok body ∧ Publishes (Utf8.lenient body) nodes := by
  constructor
  · intro sets
    cases sets with
    | polled success whole published => exact ⟨success, _, whole, published⟩
  · rintro ⟨success, body, whole, published⟩
    exact .polled success whole published

theorem outcome_apply (edge : EdgeNodes) {next : Update} {text : String}
    (sets : ∀ nodes, next.Sets nodes ↔ Publishes text nodes)
    (counts : ∀ nodes, next.accepted? nodes = some nodes.length) :
    Outcome edge next ((edge.apply (Bytes.ofText text)).map (Except.map some) id) := by
  rw [EdgeNodes.apply]
  cases read : readState (Bytes.ofText text) with
  | ok nodes =>
      have outcome : Outcome edge next (.ok (next.accepted? nodes), ⟨nodes⟩) :=
        .set ((sets nodes).mpr (readState_ok_iff.mp read))
      rwa [counts] at outcome
  | error cause =>
      refine .failed fun nodes given => ?_
      rw [readState_ok_iff.mpr ((sets nodes).mp given)] at read
      cases read

theorem outcome_poll (edge : EdgeNodes) (answer : Except String Gateway.Reply) :
    Outcome edge (.poll answer) (edge.update (.poll answer)) := by
  rw [update]
  cases answer with
  | error text => exact .failed fun nodes sets => by cases sets
  | ok reply =>
      rw [Gateway.poll]
      cases success : reply.status.isSuccess with
      | false =>
          refine .failed fun nodes sets => ?_
          rw [sets_poll_iff, success] at sets
          cases sets.1
      | true =>
          cases whole : reply.body with
          | error text =>
              refine .failed fun nodes sets => ?_
              obtain ⟨-, body, whole', -⟩ := sets_poll_iff.mp sets
              rw [whole] at whole'
              cases whole'
          | ok body =>
              refine outcome_apply edge (fun nodes => ?_) fun nodes => rfl
              rw [sets_poll_iff, success, whole]
              simp

theorem outcome_update (edge : EdgeNodes) (next : Update) :
    Outcome edge next (edge.update next) := by
  cases next with
  | replace nodes => exact .set .replaced
  | apply text => exact outcome_apply edge (fun nodes => sets_apply_iff) fun nodes => rfl
  | poll answer => exact outcome_poll edge answer

/-! ## Runs -/

/-- The list that is set last in a run, or else the one that was there at first. -/
inductive SetLast (start : EdgeNodes) : List Update → List String → Prop where
  | set {before after : List Update} {latest : Update} {nodes : List String}
      (sets : latest.Sets nodes) (unset : ∀ later ∈ after, ∀ others, ¬ later.Sets others) :
      SetLast start (before ++ latest :: after) nodes
  | start {updates : List Update} (unset : ∀ next ∈ updates, ∀ others, ¬ next.Sets others) :
      SetLast start updates start.nodes

theorem run_concat (start : EdgeNodes) (updates : List Update) (latest : Update) :
    start.run (updates ++ [latest]) = ((start.run updates).update latest).2 := by
  rw [run, List.foldl_append]
  rfl

theorem setLast_concat {start : EdgeNodes} {updates : List Update} {latest : Update}
    {nodes : List String} (last : SetLast start updates nodes)
    {told : Except ProxyError (Option Nat)} {next : EdgeNodes}
    (outcome : Outcome ⟨nodes⟩ latest (told, next)) :
    SetLast start (updates ++ [latest]) next.nodes := by
  cases outcome with
  | set sets => exact .set sets fun later among => absurd among List.not_mem_nil
  | failed unset =>
      have alone : ∀ later ∈ [latest], ∀ others, ¬ later.Sets others := by
        intro later among
        rw [List.mem_singleton.mp among]
        exact unset
      cases last with
      | set sets unset' =>
          rw [List.append_assoc, List.cons_append]
          exact .set sets (List.forall_mem_append.mpr ⟨unset', alone⟩)
      | start unset' => exact .start (List.forall_mem_append.mpr ⟨unset', alone⟩)

theorem setLast_run (start : EdgeNodes) (updates : List Update) :
    SetLast start updates (start.run updates).nodes := by
  induction updates using List.reverseRecOn with
  | nil => exact .start fun next among => absurd among List.not_mem_nil
  | append_singleton updates latest ih =>
      rw [run_concat]
      exact setLast_concat ih (outcome_update _ latest)

/-- Each update, on any list, sets a list as a whole and is told how many nodes were accepted, or is
told that it failed and changes nothing.  A text publishes nodes exactly if it is a document with a
node map, and a member that is no node changes nothing for the others.  After a run the list is the
one that was set last. -/
theorem updates_all_or_nothing :
    (∀ (edge : EdgeNodes) (next : Update), Outcome edge next (edge.update next)) ∧
    (∀ text, (∃ nodes, Publishes text nodes) ↔ ∃ members, HasNodeMap text members) ∧
    (∀ before key node after nodes, (∀ address, ¬ AddressOf node address) →
      (Addresses (before ++ (key, node) :: after) nodes ↔ Addresses (before ++ after) nodes)) ∧
    ∀ (start : EdgeNodes) (updates : List Update),
      SetLast start updates (start.run updates).nodes :=
  ⟨outcome_update, fun _ => exists_publishes_iff, fun _ _ _ _ _ => addresses_leftOut, setLast_run⟩

/-- The nodes of a document stay while a poll and another document fail. -/
theorem sample_kept_over_failures :
    (∃ members, HasNodeMap sample members) ∧
      SetLast ⟨["10.0.0.9:80"]⟩ [.apply sample, .poll (.error "timed out"), .apply "[]"]
        ["10.0.0.1:8080", "10.0.0.2:80"] := by
  have applied : ((⟨["10.0.0.9:80"]⟩ : EdgeNodes).update (.apply sample)).2 =
      ⟨["10.0.0.1:8080", "10.0.0.2:80"]⟩ := by
    rw [update, EdgeNodes.apply, readState_ok_iff.mpr publishes_sample]
    rfl
  have refused (edge : EdgeNodes) : (edge.update (.apply "[]")).2 = edge := by
    have read : readState (Bytes.ofText "[]") =
        .error (.gateway "state has no response.node_data_map") := by
      decide +kernel
    rw [update, EdgeNodes.apply, read]
    rfl
  have ran :
      (run ⟨["10.0.0.9:80"]⟩ [.apply sample, .poll (.error "timed out"), .apply "[]"]).nodes =
        ["10.0.0.1:8080", "10.0.0.2:80"] := by
    rw [run, List.foldl_cons, List.foldl_cons, List.foldl_cons, List.foldl_nil, applied, refused]
    rfl
  obtain ⟨-, published, -, last⟩ := updates_all_or_nothing
  exact ⟨(published sample).mp ⟨_, publishes_sample⟩, ran ▸ last _ _⟩

/-- A document of the full grammar with a node map, whose other member makes it fail. -/
def RefusedFor (version : String) : Prop :=
  (∃ document, Json.WritesDocument .full 128 document
      (Bytes.ofText (documentText "\x7b\x7d" version)) ∧
    document.find? ["response", "node_data_map"] = some (.object [])) ∧
  (⟨["10.0.0.1:80"]⟩ : EdgeNodes).apply (Bytes.ofText (documentText "\x7b\x7d" version)) =
    (.error (.json .malformed), ⟨["10.0.0.1:80"]⟩)

/-- A numeral beyond the range of doubles, lists that are nested too deep with their object, and a
surrogate without its partner. -/
theorem full_grammar_refused :
    RefusedFor "1e999" ∧ RefusedFor (nestedText 127) ∧ RefusedFor "\"\\ud800\"" := by
  have map : Json.WritesValue .full 126 (.object []) (Bytes.ofText "\x7b\x7d") :=
    .object (.brace Json.blank_nil) (Json.listing_self List.Pairwise.nil)
  have document {version : String} {value : Value}
      (form : Json.WritesValue .full 127 value (Bytes.ofText version)) :=
    writesDocument_documentText (fun _ _ => Json.Dialect.full_text) map form
  have numeral : Json.WritesValue .full 127 (.number "1e999") (Bytes.ofText "1e999") := by
    have whole : Json.Whole [49] := by
      exact ⟨⟨by decide, List.all_eq_true.mp (by decide)⟩, by decide⟩
    have digits : Json.Digits (Bytes.ofText "999") := by
      exact ⟨by decide, List.all_eq_true.mp (by decide)⟩
    exact .number ⟨[], [49], [], 101 :: ([] ++ Bytes.ofText "999"), .inl rfl, whole, .inl rfl,
      .inr ⟨101, [], Bytes.ofText "999", .inl rfl, .inl rfl, digits, rfl⟩, by decide⟩
  have surrogate : Json.WritesValue .full 127 (.text "") (Bytes.ofText "\"\\ud800\"") := by
    have unit : Json.CodeUnit 55296 (Bytes.ofText "d800") :=
      .digits (a := 13) (b := 8) (c := 0) (d := 0) (by decide) (by decide) (by decide) (by decide)
    have literal := Json.Pieces.cons (.unit unit) .nil
    refine .text ⟨⟨_, literal, by decide⟩, fun other written => ?_⟩
    exact absurd written (Json.not_writesText_unpaired unit (by decide) other)
  refine ⟨⟨document numeral, ?_⟩, ⟨document (writesValue_nested 127), ?_⟩,
    ⟨document surrogate, ?_⟩⟩
  · decide +kernel
  · rw [ofText_documentText, ofText_nestedText]
    decide +kernel
  · decide +kernel

end EdgeNodes

end CachingProxy
