import CachingProxy.Peers.Gateway
import CachingProxy.Proofs.Domain.Endpoints

/-!
# Where a gateway is polled

The target of a poll is written from a host and a port, as the authority of an origin is, but
without brackets around a bare literal.  So the two agree exactly for the hosts that need no
brackets (`Gateway.authority_agrees_iff`), and a bare literal makes a target that is no URI: the
colon before the port is not the first one.

What is read back is read by the grammar of request targets.  The poller has a reader of its own,
which takes more texts (it folds names and escapes what it can), so what is said of reading is said
of the written target and not of the poller.
-/

set_option autoImplicit false

namespace CachingProxy

open Text

namespace Uri

theorem colons_eq_of_scanned {scan next : Scan} {c : Char} (scanned : scan.step c = some next)
    (unreset : c ∉ ['@', ']']) : next.colons = scan.colons + [c].count ':' := by
  obtain ⟨atSign, closing⟩ : c ≠ '@' ∧ c ≠ ']' := by simpa using unreset
  rw [Scan.step] at scanned
  by_cases colon : c = ':'
  · subst colon
    rw [if_pos rfl] at scanned
    split at scanned
    · cases scanned
    · rw [← Option.some.inj scanned]
      rfl
  · rw [if_neg colon, if_neg closing, if_neg atSign] at scanned
    rw [List.count_singleton, if_neg (by simpa using colon), Nat.add_zero]
    repeat' split at scanned
    all_goals first
      | rw [← Option.some.inj scanned]
      | cases scanned

theorem colons_eq_of_scan {scan final : Scan} {cs : List Char}
    (scanned : cs.foldlM Scan.step scan = some final) (unreset : ∀ c ∈ cs, c ∉ ['@', ']']) :
    final.colons = scan.colons + cs.count ':' := by
  induction cs generalizing scan with
  | nil =>
      obtain rfl := Option.some.inj scanned
      rfl
  | cons c rest ih =>
      rw [List.foldlM_cons] at scanned
      obtain ⟨next, here, later⟩ := Option.bind_eq_some_iff.mp scanned
      obtain ⟨first, others⟩ := List.forall_mem_cons.mp unreset
      rw [ih later others, colons_eq_of_scanned here first, Nat.add_assoc, ← List.count_append]
      rfl

/-- Where nothing resets the count, at most one colon may stand. -/
theorem not_isAuthority_of_colons {cs : List Char} (unreset : ∀ c ∈ cs, c ∉ ['@', ']'])
    (many : 1 < cs.count ':') : isAuthority cs = false := by
  rw [isAuthority]
  split
  · rename_i final scanned
    have counted := colons_eq_of_scan scanned unreset
    rw [Nat.zero_add] at counted
    rw [Scan.accepted, counted, decide_eq_false (Nat.not_le.mpr many)]
    simp
  · rfl

end Uri

namespace Gateway

variable {settings : Config.PeerSettings}

def endpoint (settings : Config.PeerSettings) : Endpoint :=
  ⟨settings.gatewayHost, settings.gatewayPort⟩

/-- What stands behind the scheme of a target, up to the first sign that ends an authority. -/
def authorityPart (url : String) : String :=
  String.ofList (cutAt Uri.endsAuthority (url.toList.drop "http://".length)).1

def hostPort (settings : Config.PeerSettings) : List Char :=
  settings.gatewayHost.toList ++ ':' :: Nat.toDigits 10 settings.gatewayPort.toNat

theorem toList_url (settings : Config.PeerSettings) :
    (url settings).toList = "http://".toList ++ (hostPort settings ++ statePath.toList) := by
  have parts : url settings = "http://" ++
      (settings.gatewayHost ++ ":" ++ toString settings.gatewayPort.toNat) ++ statePath := by
    simp only [url, String.append_assoc]
  rw [parts, String.toList_append, String.toList_append, Uri.toList_ported, hostPort,
    List.append_assoc]

theorem toList_authority (settings : Config.PeerSettings) :
    (endpoint settings).authority.toList =
      if Endpoint.needsBrackets settings.gatewayHost.toList then
        '[' :: settings.gatewayHost.toList ++
          ']' :: ':' :: Nat.toDigits 10 settings.gatewayPort.toNat
      else hostPort settings := by
  rw [Endpoint.toList_authority, endpoint, Endpoint.form]
  dsimp only
  split
  · simp [WrittenHost.text, Endpoint.portDigits]
  · rfl

theorem length_host_le_authority :
    settings.gatewayHost.toList.length ≤ (endpoint settings).authority.toList.length := by
  rw [toList_authority]
  split
  · simp only [List.length_append, List.length_cons]
    omega
  · rw [hostPort, List.length_append]
    exact Nat.le_add_right _ _

theorem hostPort_eq_authority_iff :
    hostPort settings = (endpoint settings).authority.toList ↔
      Endpoint.needsBrackets settings.gatewayHost.toList = false := by
  rw [toList_authority]
  split
  · rename_i bracketed
    simp only [bracketed, Bool.true_eq_false, iff_false]
    intro same
    have longer := congrArg List.length same
    simp only [hostPort, List.length_append, List.length_cons] at longer
    omega
  · rename_i bare
    simp [bare]

theorem endsAuthority_of_digit {c : Char} (digit : isDigit c = true) :
    Uri.endsAuthority c = false := by
  rw [isDigit_iff] at digit
  rw [Bool.eq_false_iff]
  intro ends
  simp only [Uri.endsAuthority, Bool.or_eq_true, beq_iff_eq] at ends
  rcases ends with (rfl | rfl) | rfl <;> exact absurd digit (by decide)

theorem endsAuthority_of_hostPort
    (whole : ∀ c ∈ settings.gatewayHost.toList, Uri.endsAuthority c = false) :
    ∀ c ∈ hostPort settings, Uri.endsAuthority c = false := by
  intro c member
  rw [hostPort, List.mem_append, List.mem_cons] at member
  rcases member with host | rfl | digit
  · exact whole c host
  · rfl
  · exact endsAuthority_of_digit (isDigit_of_mem_toDigits digit)

theorem endsAuthority_of_head_statePath :
    ∀ c ∈ statePath.toList.head?, Uri.endsAuthority c = true := by
  have first : statePath.toList.head? = some '/' := by decide
  intro c found
  obtain rfl := Option.some.inj (first.symm.trans found)
  rfl

theorem authorityPart_url (settings : Config.PeerSettings) :
    (authorityPart (url settings)).toList =
      (hostPort settings ++ statePath.toList).takeWhile fun c => !Uri.endsAuthority c := by
  have dropped : (url settings).toList.drop "http://".length =
      hostPort settings ++ statePath.toList := by
    rw [toList_url]
    exact List.drop_left
  rw [authorityPart, dropped, String.toList_ofList, cutAt]

theorem authorityPart_of_whole
    (whole : ∀ c ∈ settings.gatewayHost.toList, Uri.endsAuthority c = false) :
    (authorityPart (url settings)).toList = hostPort settings := by
  have inside : ∀ c ∈ hostPort settings, (!Uri.endsAuthority c) = true := fun c member => by
    rw [endsAuthority_of_hostPort whole c member]
    rfl
  have stops : ∀ c ∈ statePath.toList.head?, (!Uri.endsAuthority c) = false := fun c first => by
    rw [endsAuthority_of_head_statePath c first]
    rfl
  rw [authorityPart_url, (run_append inside stops).1]

theorem authorityPart_shorter {c : Char} (member : c ∈ settings.gatewayHost.toList)
    (ends : Uri.endsAuthority c = true) :
    (authorityPart (url settings)).toList.length < settings.gatewayHost.toList.length := by
  obtain ⟨before, after, parts⟩ := List.append_of_mem member
  have cut (behind : List Char) :
      ((before ++ c :: behind).takeWhile fun d => !Uri.endsAuthority d).length ≤ before.length := by
    rw [List.takeWhile_append, List.takeWhile_cons_of_neg (by simp [ends])]
    split
    · rw [List.append_nil]
    · exact (List.takeWhile_sublist _).length_le
  rw [authorityPart_url, hostPort, parts]
  simp only [List.append_assoc, List.cons_append]
  exact Nat.lt_of_le_of_lt (cut _) (by simp)

theorem authorityPart_eq_iff :
    authorityPart (url settings) = (endpoint settings).authority ↔
      Endpoint.needsBrackets settings.gatewayHost.toList = false ∧
        ∀ c ∈ settings.gatewayHost.toList, Uri.endsAuthority c = false := by
  rw [← String.toList_inj, ← hostPort_eq_authority_iff]
  constructor
  · intro same
    have whole : ∀ c ∈ settings.gatewayHost.toList, Uri.endsAuthority c = false := by
      intro c member
      rw [Bool.eq_false_iff]
      intro ends
      have shorter := authorityPart_shorter member ends
      rw [same] at shorter
      exact Nat.not_lt.mpr length_host_le_authority shorter
    exact ⟨(authorityPart_of_whole whole).symm.trans same, whole⟩
  · rintro ⟨same, whole⟩
    rw [authorityPart_of_whole whole, same]

theorem url_eq_iff :
    url settings = "http://" ++ (endpoint settings).authority ++ statePath ↔
      Endpoint.needsBrackets settings.gatewayHost.toList = false := by
  rw [← hostPort_eq_authority_iff, ← String.toList_inj, toList_url, String.toList_append,
    String.toList_append, List.append_assoc, List.append_cancel_left_eq,
    List.append_cancel_right_eq]

/-! ## Targets that can be read -/

theorem ofText?_url
    (whole : ∀ c ∈ settings.gatewayHost.toList, Uri.endsAuthority c = false) :
    Uri.ofText? (url settings) =
      if Uri.maxLength < (url settings).utf8ByteSize then none
      else if Uri.isAuthority (hostPort settings) then
        some (.absolute "http" (String.ofList (hostPort settings)) statePath none)
      else none := by
  have known : "http" = "http" ∨ "http" = "https" := .inl rfl
  have nonempty : (hostPort settings).isEmpty = false := by simp [hostPort]
  have path : Uri.pathQuery? statePath.toList = some (statePath, none) := by decide
  have read := Uri.readFull_absolute known (endsAuthority_of_hostPort whole)
    endsAuthority_of_head_statePath
  have written : "http".toList ++ ("://".toList ++ (hostPort settings ++ statePath.toList)) =
      (url settings).toList := by
    rw [toList_url]
    rfl
  rw [nonempty, path, written] at read
  have full : (url settings).toList = 'h' :: (url settings).toList.tail := by
    rw [toList_url]
    rfl
  rw [Uri.ofText?_of_scheme full, ← full, read]
  cases Uri.isAuthority (hostPort settings) <;> rfl

/-- A host that may stand alone in a URI makes a target with the authority of an origin. -/
theorem ofText?_url_of_isHost (host : Uri.isHost settings.gatewayHost.toList = true) :
    Uri.ofText? (url settings) =
      if Uri.maxLength < (url settings).utf8ByteSize then none
      else some (.absolute "http" (endpoint settings).authority statePath none) := by
  have authority := host
  rw [Uri.isHost, Bool.and_eq_true] at authority
  have whole : ∀ c ∈ settings.gatewayHost.toList, Uri.endsAuthority c = false :=
    Uri.forall_of_isAuthority (fun _ _ _ step => Uri.not_endsAuthority_of_scanned step) authority.1
  have bare : Endpoint.needsBrackets settings.gatewayHost.toList = false := by
    rcases Uri.isHost_cases host with ⟨inside, parts, -⟩ | ⟨-, colonless⟩
    · rw [parts]
      simp [Endpoint.needsBrackets]
    · simp [Endpoint.needsBrackets, colonless]
  have ported : Uri.isAuthority (hostPort settings) = true :=
    Uri.isAuthority_ported host fun c => isDigit_of_mem_toDigits
  have same : String.ofList (hostPort settings) = (endpoint settings).authority := by
    rw [hostPort_eq_authority_iff.mpr bare, String.ofList_toList]
  rw [ofText?_url whole, if_pos ported, same]

/-- A bare literal makes a target that is no URI, as its port follows a second colon. -/
theorem ofText?_url_of_bare (literal : Endpoint.needsBrackets settings.gatewayHost.toList = true)
    (plain : ∀ c ∈ settings.gatewayHost.toList, c ∉ ['@', ']', '/', '?', '#']) :
    Uri.ofText? (url settings) = none := by
  have whole : ∀ c ∈ settings.gatewayHost.toList, Uri.endsAuthority c = false := by
    intro c member
    have other := plain c member
    simp only [List.mem_cons, List.not_mem_nil, or_false, not_or] at other
    simp [Uri.endsAuthority, other]
  have unreset : ∀ c ∈ hostPort settings, c ∉ ['@', ']'] := by
    intro c member
    rw [hostPort, List.mem_append, List.mem_cons] at member
    rcases member with host | rfl | digit
    · exact fun reset => plain c host (List.mem_of_mem_take (i := 2) reset)
    · decide
    · have other := (Uri.ordinary_of_digit (isDigit_of_mem_toDigits digit)).1.2
      simp only [List.mem_cons, List.not_mem_nil, or_false, not_or] at other ⊢
      exact ⟨other.2.2, other.2.1⟩
  have colon : ':' ∈ settings.gatewayHost.toList := by
    exact (Endpoint.needsBrackets_iff.mp literal).1
  have many : 1 < (hostPort settings).count ':' := by
    have counted := List.count_pos_iff.mpr colon
    rw [hostPort, List.count_append, List.count_cons_self]
    omega
  rw [ofText?_url whole, Uri.not_isAuthority_of_colons unreset many]
  split <;> rfl

/-! ## Agreement with origins -/

/-- The target of a poll has the authority of an origin with this host and port exactly if the host
needs no brackets, and no sign in it ends the authority.  By the grammar of request targets, which
is not the one the poller reads by, a host that can stand in a URI is read back, while a bare
literal makes a target that is no URI. -/
theorem authority_agrees_iff (settings : Config.PeerSettings) :
    let host := settings.gatewayHost.toList
    let origin : Endpoint := ⟨settings.gatewayHost, settings.gatewayPort⟩
    (url settings = "http://" ++ origin.authority ++ statePath ↔
      Endpoint.needsBrackets host = false) ∧
    (authorityPart (url settings) = origin.authority ↔
      Endpoint.needsBrackets host = false ∧ ∀ c ∈ host, Uri.endsAuthority c = false) ∧
    (Uri.isHost host = true → Uri.ofText? (url settings) =
      if Uri.maxLength < (url settings).utf8ByteSize then none
      else some (.absolute "http" origin.authority statePath none)) ∧
    (Endpoint.needsBrackets host = true → (∀ c ∈ host, c ∉ ['@', ']', '/', '?', '#']) →
      Uri.ofText? (url settings) = none) :=
  ⟨url_eq_iff, authorityPart_eq_iff, ofText?_url_of_isHost, ofText?_url_of_bare⟩

/-- A name, which is polled where an origin of the name would be. -/
theorem gateway_polled_by_name :
    let settings : Config.PeerSettings := { gatewayHost := "gateway.local", gatewayPort := 3001 }
    Endpoint.needsBrackets settings.gatewayHost.toList = false ∧
      authorityPart (url settings) = "gateway.local:3001" ∧
      Uri.ofText? (url settings) =
        some (.absolute "http" "gateway.local:3001" "/api/p2p/state" none) := by
  intro settings
  have bare : Endpoint.needsBrackets settings.gatewayHost.toList = false := by decide
  have host : Uri.isHost settings.gatewayHost.toList = true := by decide
  have short : ¬ Uri.maxLength < (url settings).utf8ByteSize := by decide
  have authority : (endpoint settings).authority = "gateway.local:3001" := by decide
  have ordinary :
      (settings.gatewayHost.toList.all fun c => !Uri.endsAuthority c) = true := by decide
  have whole : ∀ c ∈ settings.gatewayHost.toList, Uri.endsAuthority c = false := fun c member => by
    simpa using List.all_eq_true.mp ordinary c member
  obtain ⟨-, part, read, -⟩ := authority_agrees_iff settings
  refine ⟨bare, (part.mpr ⟨bare, whole⟩).trans authority, (read host).trans ?_⟩
  rw [if_neg short]
  exact congrArg (fun authority => some (Uri.absolute "http" authority statePath none)) authority

/-- A bare literal, which an origin may have.  Its target is no URI, that of the origin is one. -/
theorem bare_literal_not_polled :
    let settings : Config.PeerSettings := { gatewayHost := "::1", gatewayPort := 3001 }
    let origin : Endpoint := ⟨settings.gatewayHost, settings.gatewayPort⟩
    url settings = "http://::1:3001/api/p2p/state" ∧ origin.authority = "[::1]:3001" ∧
      authorityPart (url settings) ≠ origin.authority ∧
      Uri.ofText? (url settings) = none ∧
      Uri.ofText? ("http://" ++ origin.authority ++ statePath) =
        some (.absolute "http" "[::1]:3001" "/api/p2p/state" none) := by
  decide

end Gateway

end CachingProxy
