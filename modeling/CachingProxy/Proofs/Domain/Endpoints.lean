import CachingProxy.Domain.Table
import CachingProxy.Proofs.Cache.Entries
import CachingProxy.Proofs.Domain.Forms

/-!
# Endpoints told by their authority

`Endpoint.authority` joins a host and a port, with brackets around a bare literal, and
`Domain.stripPort` takes both away again.  A trimmed host is recovered exactly if no bracket opens
it and none closes inside a literal (`Endpoint.stripPort_authority_iff`).  Two endpoints share an
authority exactly if they have one port and hosts that are written alike
(`Endpoint.authority_eq_iff`).  So hosts without brackets are told apart
(`Endpoint.stripPort_undoes_authority`).
-/

set_option autoImplicit false

namespace CachingProxy

open Text WrittenHost

theorem Text.isBlank_of_isDigit {c : Char} (digit : isDigit c = true) : isBlank c = false := by
  rw [isDigit_iff] at digit
  rw [Bool.eq_false_iff]
  intro blank
  simp only [isBlank, Bool.or_eq_true, Bool.and_eq_true, beq_iff_eq, decide_eq_true_eq] at blank
  omega

namespace Endpoint

/-! ## Authorities as written -/

/-- A host as its authority has it. -/
def form (host : List Char) : WrittenHost :=
  if needsBrackets host then .literal host else .name host

theorem bare_form (host : List Char) : (form host).bare = host := by
  rw [form]
  split <;> rfl

theorem needsBrackets_iff {host : List Char} :
    needsBrackets host = true ↔ ':' ∈ host ∧ host.head? ≠ some '[' := by
  rw [needsBrackets, Bool.and_eq_true, List.contains_iff_mem, bne_iff_ne]

theorem apart_form_iff {host : List Char} :
    (form host).Apart ↔ host.head? ≠ some '[' ∧ (':' ∈ host → ']' ∉ host) := by
  rw [form]
  split
  · rename_i bracketed
    obtain ⟨colon, first⟩ := needsBrackets_iff.mp bracketed
    simp [Apart, colon, first]
  · rename_i unbracketed
    rw [needsBrackets_iff, not_and_not_right] at unbracketed
    constructor
    · rintro ⟨first, bare⟩
      exact ⟨first, fun colon => absurd colon bare⟩
    · rintro ⟨first, -⟩
      exact ⟨first, fun colon => first (unbracketed colon)⟩

def portDigits (endpoint : Endpoint) : List Char := Nat.toDigits 10 endpoint.port.toNat

theorem toList_authority (endpoint : Endpoint) :
    endpoint.authority.toList =
      (form endpoint.host.toList).text ++ ':' :: endpoint.portDigits := by
  have digits : (toString endpoint.port.toNat).toList = endpoint.portDigits := Nat.toList_repr
  rw [authority, form]
  split
  · simp only [String.toList_append, digits, text]
    simp
  · exact Uri.toList_ported endpoint.host endpoint.port.toNat

theorem isDigit_of_mem_portDigits {endpoint : Endpoint} {c : Char}
    (member : c ∈ endpoint.portDigits) : isDigit c = true := isDigit_of_mem_toDigits member

theorem portDigits_inj {a b : Endpoint} : a.portDigits = b.portDigits ↔ a.port = b.port := by
  constructor
  · intro same
    have value := congrArg decimal same
    rw [portDigits, portDigits, decimal_toDigits, decimal_toDigits] at value
    exact UInt16.toNat_inj.mp value
  · intro same
    rw [portDigits, portDigits, same]

theorem append_portDigits_inj {a b : Endpoint} {before before' : List Char} :
    before ++ ':' :: a.portDigits = before' ++ ':' :: b.portDigits ↔
      before = before' ∧ a.port = b.port := by
  have colonless (endpoint : Endpoint) : ':' ∉ endpoint.portDigits.reverse := by
    rw [List.mem_reverse]
    intro member
    cases isDigit_of_mem_portDigits member
  have behind (before : List Char) (endpoint : Endpoint) :
      (before ++ ':' :: endpoint.portDigits).reverse.takeWhile (fun c => c != ':') =
        endpoint.portDigits.reverse := by
    rw [List.reverse_append, List.reverse_cons, List.append_assoc, List.singleton_append]
    exact takeWhile_ne_append (colonless endpoint) (by simp)
  constructor
  · intro same
    have digits : a.portDigits = b.portDigits := by
      rw [← List.reverse_inj, ← behind before, ← behind before', same]
    rw [digits] at same
    exact ⟨List.append_cancel_right same, portDigits_inj.mp digits⟩
  · rintro ⟨rfl, same⟩
    rw [portDigits_inj.mpr same]

/-- Endpoints share an authority exactly if they have one port and their hosts are written alike. -/
theorem authority_eq_iff {a b : Endpoint} :
    a.authority = b.authority ↔
      (form a.host.toList).text = (form b.host.toList).text ∧ a.port = b.port := by
  rw [← String.toList_inj, toList_authority, toList_authority, append_portDigits_inj]

/-- A literal is written with brackets, whether they are its own or not. -/
example : (⟨"[::1]", 80⟩ : Endpoint).authority = (⟨"::1", 80⟩ : Endpoint).authority := by decide

/-! ## Hosts recovered -/

variable {endpoint : Endpoint}

theorem trim_authority (trimmed : Text.trimmed endpoint.host = endpoint.host) :
    trim endpoint.authority.toList = endpoint.authority.toList := by
  have host : trim endpoint.host.toList = endpoint.host.toList := by
    rw [← String.toList_inj, Text.trimmed, String.toList_ofList] at trimmed
    exact trimmed
  rw [toList_authority, trim_eq_self_iff]
  constructor
  · intro c first
    rw [form] at first
    split at first
    · obtain rfl := Option.some.inj first
      rfl
    · cases whole : endpoint.host.toList with
      | nil =>
          rw [whole] at first
          obtain rfl := Option.some.inj first
          rfl
      | cons d rest =>
          rw [whole] at first host
          exact (trim_eq_self_iff.mp host).1 c first
  · intro c last
    rw [List.getLast?_append_of_ne_nil _ (List.cons_ne_nil _ _)] at last
    rcases List.mem_cons.mp (List.mem_of_getLast? last) with rfl | digit
    · rfl
    · exact isBlank_of_isDigit (isDigit_of_mem_portDigits digit)

theorem unclosed_of_recovered {rest : List Char}
    (opened : trim endpoint.authority.toList = '[' :: rest)
    (recovered : Domain.stripPort endpoint.authority = endpoint.host) :
    endpoint.host.toList = (rest.takeWhile fun c => c != ']') ∧ ']' ∉ endpoint.host.toList := by
  have inside : endpoint.host.toList = rest.takeWhile fun c => c != ']' := by
    rw [← recovered, Domain.stripPort, String.toList_ofList,
      Domain.stripPortChars_of_bracket opened]
  refine ⟨inside, fun member => ?_⟩
  rw [inside] at member
  simpa using List.mem_takeWhile_imp member

theorem head?_ne_of_recovered (trimmed : Text.trimmed endpoint.host = endpoint.host)
    (recovered : Domain.stripPort endpoint.authority = endpoint.host) :
    endpoint.host.toList.head? ≠ some '[' := by
  intro first
  obtain ⟨rest, host⟩ := List.head?_eq_some_iff.mp first
  have unbracketed : needsBrackets ('[' :: rest) = false := by simp [needsBrackets]
  have opened : trim endpoint.authority.toList = '[' :: (rest ++ ':' :: endpoint.portDigits) := by
    rw [trim_authority trimmed, toList_authority, host, form, unbracketed]
    rfl
  obtain ⟨inside, unclosed⟩ := unclosed_of_recovered opened recovered
  -- Nothing ends the host but the end of the authority, so it is too long by the port.
  have whole : ∀ c ∈ rest ++ ':' :: endpoint.portDigits, (c != ']') = true := by
    intro c member
    rw [bne_iff_ne]
    rintro rfl
    rw [List.mem_append, List.mem_cons] at member
    rcases member with early | colon | digit
    · exact unclosed (host ▸ List.mem_cons_of_mem '[' early)
    · cases colon
    · cases isDigit_of_mem_portDigits digit
  rw [List.takeWhile_eq_self_iff.mpr whole, host] at inside
  have length := congrArg List.length inside
  have digits : 0 < endpoint.portDigits.length := List.length_pos_iff.mpr Nat.toDigits_ne_nil
  simp only [List.length_append, List.length_cons] at length
  omega

/-- A trimmed host is read back from its authority exactly if no bracket opens it and, should it be
a literal, none closes inside. -/
theorem stripPort_authority_iff (trimmed : Text.trimmed endpoint.host = endpoint.host) :
    Domain.stripPort endpoint.authority = endpoint.host ↔
      endpoint.host.toList.head? ≠ some '[' ∧
        (':' ∈ endpoint.host.toList → ']' ∉ endpoint.host.toList) := by
  have untouched := trim_authority trimmed
  constructor
  · intro recovered
    have first := head?_ne_of_recovered trimmed recovered
    refine ⟨first, fun colon => ?_⟩
    have bracketed := needsBrackets_iff.mpr ⟨colon, first⟩
    have opened : trim endpoint.authority.toList =
        '[' :: (endpoint.host.toList ++ ']' :: ':' :: endpoint.portDigits) := by
      rw [untouched, toList_authority, form, if_pos bracketed]
      simp [text]
    exact (unclosed_of_recovered opened recovered).2
  · intro free
    have digits : ∀ cs, some endpoint.portDigits = some cs → ∀ c ∈ cs, isDigit c = true := by
      rintro cs ⟨⟩ c member
      exact isDigit_of_mem_portDigits member
    rw [toList_authority] at untouched
    have stripped := (apart_form_iff.mpr free).stripPortChars_eq digits untouched
    rw [bare_form] at stripped
    rw [← String.toList_inj, Domain.stripPort, String.toList_ofList, toList_authority]
    exact stripped

/-- A host without brackets and without blanks at its ends. -/
structure Bare (endpoint : Endpoint) : Prop where
  unopened : '[' ∉ endpoint.host.toList
  unclosed : ']' ∉ endpoint.host.toList
  trimmed : Text.trimmed endpoint.host = endpoint.host

theorem Bare.stripPort_authority (bare : endpoint.Bare) :
    Domain.stripPort endpoint.authority = endpoint.host :=
  (stripPort_authority_iff bare.trimmed).mpr
    ⟨fun first => bare.unopened (List.mem_of_head? first), fun _ => bare.unclosed⟩

theorem Bare.authority_inj {a b : Endpoint} (bare : a.Bare) (bare' : b.Bare) :
    a.authority = b.authority ↔ a = b := by
  constructor
  · intro same
    have host : a.host = b.host := by
      rw [← bare.stripPort_authority, same, bare'.stripPort_authority]
    have port : a.port = b.port := (authority_eq_iff.mp same).2
    cases a
    cases b
    cases host
    cases port
    rfl
  · rintro rfl
    rfl

/-- Taking the port from an authority undoes how it was written: a host without brackets and
without blanks at its ends comes back, whatever its colons and its port.  So two such endpoints
never have one authority. -/
theorem stripPort_undoes_authority :
    (∀ endpoint : Endpoint, endpoint.Bare →
      Domain.stripPort endpoint.authority = endpoint.host) ∧
    ∀ a b : Endpoint, a.Bare → b.Bare → a ≠ b → a.authority ≠ b.authority := by
  refine ⟨fun endpoint bare => bare.stripPort_authority, fun a b bare bare' other same => ?_⟩
  exact other ((bare.authority_inj bare').mp same)

/-- A literal, and a longer one that ends as the shorter would with its port behind it. -/
theorem literals_told_apart :
    let shorter : Endpoint := ⟨"2001:db8::1", 443⟩
    let longer : Endpoint := ⟨"2001:db8::1:443", 443⟩
    shorter.Bare ∧ longer.Bare ∧ shorter ≠ longer ∧
      Domain.stripPort shorter.authority = "2001:db8::1" ∧
      Domain.stripPort longer.authority = "2001:db8::1:443" ∧
      shorter.authority ≠ longer.authority := by
  intro shorter longer
  have bare : shorter.Bare := ⟨by decide, by decide, by decide⟩
  have bare' : longer.Bare := ⟨by decide, by decide, by decide⟩
  have other : shorter ≠ longer := by decide
  obtain ⟨recovered, apart⟩ := stripPort_undoes_authority
  exact ⟨bare, bare', other, recovered shorter bare, recovered longer bare',
    apart shorter longer bare bare' other⟩

end Endpoint

/-! ## Origins of protected domains -/

namespace Domain.Table

variable {entries : List Entry} {domain : String} {origin : Endpoint}

theorem trimmed_of_origin? (found : (ofEntries entries).origin? domain = some origin) :
    Text.trimmed origin.host = origin.host := by
  obtain ⟨entry, -, listed⟩ := List.mem_map.mp (Keyed.mem_of_get?_ofEntries _ found)
  obtain rfl := (Prod.mk.inj listed).2
  rw [Text.trimmed, Text.trimmed, String.toList_ofList, trim, trim, trimBy_trimBy]

/-- The table trims the hosts of its origins, so brackets alone keep one from being recovered. -/
theorem stripPort_origin_iff (found : (ofEntries entries).origin? domain = some origin) :
    stripPort origin.authority = origin.host ↔
      origin.host.toList.head? ≠ some '[' ∧
        (':' ∈ origin.host.toList → ']' ∉ origin.host.toList) :=
  Endpoint.stripPort_authority_iff (trimmed_of_origin? found)

end Domain.Table

end CachingProxy
