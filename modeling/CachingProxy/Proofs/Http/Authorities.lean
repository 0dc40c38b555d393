import CachingProxy.Proofs.Domain.Hosts
import CachingProxy.Proofs.Http.Targets

/-!
# Hosts with a port

An authority may be a host alone (`isHost`).  With a port behind it, it is an authority again, and
its host is the same.  So a location that is written from a host, a port and a target is read as
these three (`readFull_located`).
-/

set_option autoImplicit false

namespace CachingProxy.Uri

open Text

/-! ## Authorities that are a host -/

/-- An authority without user information and without a port. -/
def isHost (cs : List Char) : Bool := isAuthority cs && hostOf cs == cs

theorem not_endsAuthority_of_scanned {scan next : Scan} {c : Char}
    (scanned : scan.step c = some next) : endsAuthority c = false := by
  rw [Bool.eq_false_iff]
  intro ends
  simp only [endsAuthority, Bool.or_eq_true, beq_iff_eq] at ends
  rcases ends with (rfl | rfl) | rfl <;> cases scanned

theorem colons_of_scanned {scan next : Scan} {c : Char} (scanned : scan.step c = some next)
    (other : c ≠ ':') : next.colons ≤ scan.colons := by
  rw [Scan.step, if_neg other] at scanned
  repeat' split at scanned
  all_goals first
    | (obtain rfl := Option.some.inj scanned; simp)
    | cases scanned

theorem colons_of_scan {scan final : Scan} {cs : List Char}
    (scanned : cs.foldlM Scan.step scan = some final) (bare : ':' ∉ cs) :
    final.colons ≤ scan.colons := by
  induction cs generalizing scan with
  | nil =>
      obtain rfl := Option.some.inj scanned
      exact Nat.le_refl _
  | cons c rest ih =>
      rw [List.foldlM_cons] at scanned
      obtain ⟨next, here, later⟩ := Option.bind_eq_some_iff.mp scanned
      rw [List.mem_cons, not_or] at bare
      exact Nat.le_trans (ih later bare.2) (colons_of_scanned here (Ne.symm bare.1))

/-- A closing bracket ends what was counted. -/
theorem colons_of_closed {scan final : Scan} {inside : List Char}
    (scanned : (inside ++ [']']).foldlM Scan.step scan = some final) : final.colons = 0 := by
  rw [List.foldlM_append] at scanned
  obtain ⟨last, _, closed⟩ := Option.bind_eq_some_iff.mp scanned
  rw [List.foldlM_cons] at closed
  obtain ⟨next, step, same⟩ := Option.bind_eq_some_iff.mp closed
  obtain rfl := Option.some.inj same
  rw [Scan.step, if_neg (by decide), if_neg (by decide), if_pos rfl] at step
  split at step
  · cases step
  · rw [← Option.some.inj step]

theorem at_not_mem_hostOf (authority : List Char) : '@' ∉ hostOf authority := by
  have bare : '@' ∉ (authority.reverse.takeWhile fun c => c != '@').reverse := by
    rw [List.mem_reverse]
    intro member
    have other := List.mem_takeWhile_imp member
    simp at other
  rw [hostOf]
  split
  · rw [List.mem_append, List.mem_singleton]
    rintro (inside | closing)
    · exact bare ((List.takeWhile_sublist _).mem inside)
    · cases closing
  · exact fun member => bare ((List.takeWhile_sublist _).mem member)

theorem hostPort_of_bare {cs : List Char} (bare : '@' ∉ cs) :
    (cs.reverse.takeWhile fun c => c != '@').reverse = cs := by
  rw [List.takeWhile_eq_self_iff.mpr, List.reverse_reverse]
  intro c member
  rw [bne_iff_ne]
  rintro rfl
  exact bare (List.mem_reverse.mp member)

theorem hostOf_bracketed {rest : List Char} (bare : '@' ∉ '[' :: rest) :
    hostOf ('[' :: rest) = '[' :: rest.takeWhile (fun c => c != ']') ++ [']'] := by
  rw [hostOf, hostPort_of_bare bare]
  rfl

theorem hostOf_unbracketed {cs : List Char} (bare : '@' ∉ cs) (first : cs.head? ≠ some '[') :
    hostOf cs = cs.takeWhile fun c => c != ':' := by
  rw [hostOf, hostPort_of_bare bare]
  split
  · exact absurd rfl first
  · rfl

/-- A host is a literal in brackets, or it has no colon. -/
theorem isHost_cases {cs : List Char} (host : isHost cs = true) :
    (∃ inside, cs = '[' :: inside ++ [']'] ∧ ']' ∉ '[' :: inside) ∨
      (cs.head? ≠ some '[' ∧ ':' ∉ cs) := by
  rw [isHost, Bool.and_eq_true, beq_iff_eq] at host
  have bare : '@' ∉ cs := by
    have none := at_not_mem_hostOf cs
    rwa [host.2] at none
  by_cases first : cs.head? = some '['
  · left
    obtain ⟨rest, rfl⟩ := List.head?_eq_some_iff.mp first
    refine ⟨rest.takeWhile fun c => c != ']', ?_, fun member => ?_⟩
    · rw [← hostOf_bracketed bare, host.2]
    · rcases List.mem_cons.mp member with own | inside
      · cases own
      · simpa using List.mem_takeWhile_imp inside
  · right
    refine ⟨first, fun member => ?_⟩
    rw [← host.2, hostOf_unbracketed bare first] at member
    simpa using List.mem_takeWhile_imp member

/-! ## A port behind a host -/

theorem scan_ordinary {cs : List Char}
    (ordinary : ∀ c ∈ cs, (isAuthorityChar c = true ∨ c = '%') ∧ c ∉ ['[', ']', '@'])
    (scan : Scan) (last : scan.atSign = false)
    (few : scan.colons + cs.count ':' ≤ maxColons) :
    cs.foldlM Scan.step scan = some { scan with
      colons := scan.colons + cs.count ':'
      percent := scan.percent || cs.contains '%' } := by
  induction cs generalizing scan with
  | nil => simp [pure]
  | cons c rest ih =>
      have later := fun d member => ordinary d (List.mem_cons_of_mem c member)
      obtain ⟨allowed, opening, closing, atSign⟩ : (isAuthorityChar c = true ∨ c = '%') ∧
          c ≠ '[' ∧ c ≠ ']' ∧ c ≠ '@' := by
        simpa using ordinary c List.mem_cons_self
      rw [List.foldlM_cons]
      by_cases colon : c = ':'
      · subst colon
        rw [List.count_cons_self] at few
        have step : scan.step ':' = some { scan with colons := scan.colons + 1 } := by
          rw [Scan.step, if_pos rfl, if_neg (by dsimp only; omega), ← last]
        rw [step]
        have left : scan.colons + 1 + rest.count ':' ≤ maxColons := by omega
        refine (ih later { scan with colons := scan.colons + 1 } last left).trans ?_
        simp [Nat.add_assoc, Nat.add_comm 1]
      · rw [List.count_cons_of_ne colon] at few ⊢
        by_cases percent : c = '%'
        · subst percent
          have step : scan.step '%' = some { scan with percent := true } := by
            rw [Scan.step, if_neg colon, if_neg opening, if_neg closing, if_neg atSign, if_pos rfl,
              ← last]
          rw [step]
          refine (ih later { scan with percent := true } last few).trans ?_
          simp
        · have step : scan.step c = some scan := by
            rw [Scan.step, if_neg colon, if_neg opening, if_neg closing, if_neg atSign,
              if_neg percent, if_pos (allowed.resolve_right percent), ← last]
          rw [step]
          refine (ih later scan last few).trans ?_
          simp [Ne.symm percent]

theorem ordinary_of_digit {c : Char} (digit : isDigit c = true) :
    ((isAuthorityChar c = true ∨ c = '%') ∧ c ∉ ['[', ']', '@']) ∧ c ≠ ':' ∧ c ≠ '%' := by
  have other (sign : Char) (unlike : isDigit sign = false) : c ≠ sign := by
    rintro rfl
    rw [digit] at unlike
    cases unlike
  refine ⟨⟨.inl ?_, ?_⟩, other ':' rfl, other '%' rfl⟩
  · rw [isAuthorityChar, isAlnum, digit]
    rfl
  · simp [other '[' rfl, other ']' rfl, other '@' rfl]

theorem scan_digits (scan : Scan) {port : List Char} (digits : ∀ c ∈ port, isDigit c = true)
    (last : scan.atSign = false) (few : scan.colons ≤ maxColons) :
    port.foldlM Scan.step scan = some scan := by
  have colons : port.count ':' = 0 := List.count_eq_zero.mpr fun member =>
    (ordinary_of_digit (digits _ member)).2.1 rfl
  have percent : port.contains '%' = false := by
    rw [← Bool.not_eq_true, List.contains_iff_mem]
    exact fun member => (ordinary_of_digit (digits _ member)).2.2 rfl
  rw [scan_ordinary (fun c member => (ordinary_of_digit (digits c member)).1) scan last
    (by omega), colons, percent, Bool.or_false, Nat.add_zero]

theorem colons_of_isHost {cs : List Char} (host : isHost cs = true) {final : Scan}
    (scanned : cs.foldlM Scan.step {} = some final) : final.colons = 0 := by
  rcases isHost_cases host with ⟨inside, rfl, _⟩ | ⟨_, bare⟩
  · exact colons_of_closed scanned
  · exact Nat.le_zero.mp (colons_of_scan scanned bare)

theorem isAuthority_ported {cs port : List Char} (host : isHost cs = true)
    (digits : ∀ c ∈ port, isDigit c = true) : isAuthority (cs ++ ':' :: port) = true := by
  have authority := host
  rw [isHost, Bool.and_eq_true] at authority
  have allowed := authority.1
  rw [isAuthority] at allowed
  split at allowed
  · rename_i final scanned
    -- No colon of a host is counted, so the one before the port is the first.
    have none := colons_of_isHost host scanned
    have colon : final.step ':' = some { final with atSign := false, colons := 1 } := by
      rw [Scan.step, if_pos rfl, if_neg (by rw [none]; decide), none]
    rw [isAuthority, List.foldlM_append, scanned]
    simp only [Option.bind_eq_bind, Option.bind_some, List.foldlM_cons, colon,
      scan_digits { final with atSign := false, colons := 1 } digits rfl
        (by decide : 1 ≤ maxColons)]
    simp only [Scan.accepted, Bool.and_eq_true] at allowed ⊢
    obtain ⟨⟨⟨brackets, _⟩, _⟩, percent⟩ := allowed
    exact ⟨⟨⟨brackets, rfl⟩, rfl⟩, percent⟩
  · cases allowed

theorem hostOf_ported {cs port : List Char} (host : isHost cs = true)
    (digits : ∀ c ∈ port, isDigit c = true) : hostOf (cs ++ ':' :: port) = cs := by
  have bare : '@' ∉ cs ++ ':' :: port := by
    have none := at_not_mem_hostOf cs
    rw [isHost, Bool.and_eq_true, beq_iff_eq] at host
    rw [host.2] at none
    rw [List.mem_append, List.mem_cons]
    rintro (inside | colon | digit)
    · exact none inside
    · cases colon
    · cases digits _ digit
  rcases isHost_cases host with ⟨inside, rfl, unclosed⟩ | ⟨unbracketed, bareColon⟩
  · have closing : ']' ∉ inside := fun member => unclosed (List.mem_cons_of_mem '[' member)
    simp only [List.cons_append, List.append_assoc, List.nil_append] at bare ⊢
    rw [hostOf_bracketed bare, takeWhile_ne_append closing (by simp)]
    rfl
  · rw [hostOf_unbracketed bare, takeWhile_ne_append bareColon (by simp)]
    cases cs with
    | nil => simp
    | cons c rest => exact unbracketed

/-! ## Locations -/

theorem toList_ported (host : String) (port : Nat) :
    (host ++ ":" ++ toString port).toList = host.toList ++ ':' :: Nat.toDigits 10 port := by
  have digits : (toString port).toList = Nat.toDigits 10 port := Nat.toList_repr
  rw [String.toList_append, String.toList_append, digits, List.append_assoc]
  rfl

theorem splitScheme?_of_scheme {scheme : List Char} (nonempty : scheme ≠ [])
    (allowed : ∀ c ∈ scheme, isSchemeChar c = true) (more : List Char) :
    splitScheme? (scheme ++ ("://".toList ++ more)) = some (scheme, more) := by
  have behind : ∀ c ∈ ("://".toList ++ more).head?, isSchemeChar c = false := by
    rintro c ⟨⟩
    rfl
  have long : ¬ (scheme ++ ("://".toList ++ more)).length ≤ 3 := by
    have filled := List.length_pos_iff.mpr nonempty
    simp only [String.reduceToList, List.length_append, List.length_cons]
    omega
  obtain ⟨taken, left⟩ := run_append allowed behind
  rw [splitScheme?, taken, left]
  exact if_neg long

theorem readFull_absolute {scheme : String} (known : scheme = "http" ∨ scheme = "https")
    {authority rest : List Char} (unended : ∀ c ∈ authority, endsAuthority c = false)
    (ended : ∀ c ∈ rest.head?, endsAuthority c = true) :
    readFull (scheme.toList ++ ("://".toList ++ (authority ++ rest))) =
      if authority.isEmpty || !isAuthority authority then none
      else (pathQuery? rest).map fun pq =>
        .absolute scheme (String.ofList authority) pq.1 pq.2 := by
  obtain ⟨nonempty, allowed, short, canonical⟩ : scheme.toList ≠ [] ∧
      (∀ c ∈ scheme.toList, isSchemeChar c = true) ∧ ¬ maxScheme < scheme.toList.length ∧
        canonicalScheme scheme.toList = scheme := by
    rcases known with rfl | rfl <;>
      exact ⟨by decide, List.all_eq_true.mp rfl, by decide, by decide⟩
  have whole : ∀ c ∈ authority, (!endsAuthority c) = true := fun c member => by
    rw [unended c member]
    rfl
  have stops : ∀ c ∈ rest.head?, (!endsAuthority c) = false := fun c member => by
    rw [ended c member]
    rfl
  obtain ⟨taken, left⟩ := run_append whole stops
  rw [readFull, splitScheme?_of_scheme nonempty allowed]
  simp only [if_neg short, cutAt, taken, left, canonical]

theorem readFull_located {host : List Char} (isHost : isHost host = true) (port : Nat)
    {path : String} {query : Option String} (readable : Readable path query)
    (first : ∀ c ∈ (withQuery path query).toList.head?, endsAuthority c = true) :
    readFull ("https://".toList ++
        (host ++ ':' :: Nat.toDigits 10 port ++ (withQuery path query).toList)) =
      some (.absolute "https" (String.ofList (host ++ ':' :: Nat.toDigits 10 port)) path query) := by
  have authority : isAuthority (host ++ ':' :: Nat.toDigits 10 port) = true :=
    isAuthority_ported isHost fun c => isDigit_of_mem_toDigits
  have unended : ∀ c ∈ host ++ ':' :: Nat.toDigits 10 port, endsAuthority c = false :=
    forall_of_isAuthority (fun _ _ _ step => not_endsAuthority_of_scanned step) authority
  have nonempty : (host ++ ':' :: Nat.toDigits 10 port).isEmpty = false := by simp
  have known : "https" = "http" ∨ "https" = "https" := .inr rfl
  have whole := readFull_absolute known unended first
  rw [nonempty, authority, readable.pathQuery?_eq] at whole
  exact whole

theorem ofText?_of_scheme {text : String} {more : List Char} (written : text.toList = 'h' :: more) :
    ofText? text = if maxLength < text.utf8ByteSize then none else readFull ('h' :: more) := by
  rw [ofText?, written]
  rfl

theorem ofText?_https {text : String} {more : List Char}
    (written : text.toList = "https://".toList ++ more) :
    ofText? text =
      if maxLength < text.utf8ByteSize then none else readFull ("https://".toList ++ more) :=
  ofText?_of_scheme written

end CachingProxy.Uri
