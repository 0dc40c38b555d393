import CachingProxy.Proofs.Text.Splitting
import CachingProxy.Session.HopByHop

/-!
# The fields that travel on

Which names are taken out of a head is read from the head itself.  All fields of a name stay or
none, so those that stay keep their values and the order of these.  What lists names is taken out
with them, and nothing is left that a second time would take out.
-/

set_option autoImplicit false

namespace CachingProxy

namespace Headers

variable {headers : Headers} {name : String}

/-! ## The names that a head lists -/

/-- Some value of the field `connection` is text and has, between commas and with blanks around it
that do not count, a token that is this name in any letter case. -/
def Lists (headers : Headers) (name : String) : Prop :=
  ∃ value ∈ headers.values "connection", ∃ text, Bytes.asText? value = some text ∧
    ∃ part, Text.IsPart (fun c => c == ',') text.toList part ∧
      Http.isToken (Text.trim part) = true ∧ Text.lower (Text.trim part) = name.toList

theorem mem_listedNames_iff {value : Bytes} :
    name ∈ HopByHop.listedNames value ↔ ∃ text, Bytes.asText? value = some text ∧
      ∃ part, Text.IsPart (fun c => c == ',') text.toList part ∧
        Http.isToken (Text.trim part) = true ∧ Text.lower (Text.trim part) = name.toList := by
  rw [HopByHop.listedNames]
  cases Bytes.asText? value with
  | none => simp
  | some text =>
      have named (part : List Char) : Http.fieldName? (Text.trim part) = some name ↔
          Http.isToken (Text.trim part) = true ∧ Text.lower (Text.trim part) = name.toList := by
        rw [Http.fieldName?, Option.ite_none_right_eq_some, Option.some_inj,
          ← String.toList_inj, String.toList_ofList]
      simp only [List.mem_filterMap, Text.mem_splitBy_iff, named, Option.some_inj,
        exists_eq_left']

theorem mem_listed_iff : name ∈ HopByHop.listed headers ↔ headers.Lists name := by
  simp only [HopByHop.listed, List.mem_flatMap, mem_listedNames_iff, Lists]

/-! ## Exactly the fields of some names -/

/-- A head has the fields of a head whose names are kept, with all their values in order, and no
others. -/
def KeepsOf (stripped headers : Headers) (kept : String → Prop) : Prop :=
  ∀ name, (kept name → stripped.values name = headers.values name) ∧
    (¬ kept name → stripped.values name = [])

theorem values_filter (headers : Headers) (keep : String → Bool) (name : String) :
    values (headers.filter fun field => keep field.name) name =
      if keep name then headers.values name else [] := by
  rw [values, List.filter_filter, values]
  split
  · rename_i stays
    congr 1
    refine List.filter_congr fun field _ => ?_
    by_cases here : field.name = name
    · simp [here, stays]
    · simp [here]
  · rename_i goes
    rw [List.map_eq_nil_iff, List.filter_eq_nil_iff]
    intro field _ kept
    obtain ⟨here, stays⟩ := Bool.and_eq_true_iff.mp kept
    rw [eq_of_beq here] at stays
    exact goes stays

theorem keepsOf_filter (headers : Headers) {keep : String → Bool} {kept : String → Prop}
    (same : ∀ name, keep name = true ↔ kept name) :
    KeepsOf (headers.filter fun field => keep field.name) headers kept := by
  intro name
  rw [values_filter, ← same]
  exact ⟨fun stays => if_pos stays, fun goes => if_neg goes⟩

/-! ## Answers and requests -/

def travels (headers : Headers) (name : String) : Bool :=
  !(HopByHop.listed headers ++ HopByHop.names).contains name &&
    name != "accept-encoding" && name != HopByHop.directName

theorem stripRequest_eq (headers : Headers) :
    headers.stripRequest = headers.filter fun field => headers.travels field.name := by
  rw [stripRequest, stripResponse, erase, erase, List.filter_filter, List.filter_filter]
  refine List.filter_congr fun field _ => ?_
  rw [travels]
  ac_rfl

theorem passes_iff : (!(HopByHop.listed headers ++ HopByHop.names).contains name) = true ↔
    name ∉ HopByHop.names ∧ ¬ headers.Lists name := by
  simp only [Bool.not_eq_true', List.contains_eq_mem, decide_eq_false_iff_not, List.mem_append,
    mem_listed_iff, not_or]
  exact and_comm

theorem travels_iff : headers.travels name = true ↔
    name ∉ HopByHop.names ∧ ¬ headers.Lists name ∧ name ≠ "accept-encoding" ∧
      name ≠ HopByHop.directName := by
  rw [travels, Bool.and_eq_true_iff, Bool.and_eq_true_iff, passes_iff, bne_iff_ne, bne_iff_ne,
    and_assoc, and_assoc]

theorem stripResponse_keepsOf (headers : Headers) :
    KeepsOf headers.stripResponse headers fun name =>
      name ∉ HopByHop.names ∧ ¬ headers.Lists name :=
  keepsOf_filter headers fun _ => passes_iff

theorem stripRequest_keepsOf (headers : Headers) :
    KeepsOf headers.stripRequest headers fun name =>
      name ∉ HopByHop.names ∧ ¬ headers.Lists name ∧ name ≠ "accept-encoding" ∧
        name ≠ HopByHop.directName := by
  rw [stripRequest_eq]
  exact keepsOf_filter headers fun _ => travels_iff

/-! ## A second time -/

theorem not_lists_of_unconnected (unconnected : headers.values "connection" = []) :
    ¬ headers.Lists name := by
  rintro ⟨value, member, -⟩
  rw [unconnected] at member
  cases member

theorem not_lists_stripResponse : ¬ headers.stripResponse.Lists name :=
  not_lists_of_unconnected <|
    (headers.stripResponse_keepsOf "connection").2 fun kept => kept.1 (by decide)

theorem not_lists_stripRequest : ¬ headers.stripRequest.Lists name :=
  not_lists_of_unconnected <|
    (headers.stripRequest_keepsOf "connection").2 fun kept => kept.1 (by decide)

theorem stripResponse_stripResponse (headers : Headers) :
    headers.stripResponse.stripResponse = headers.stripResponse := by
  refine List.filter_eq_self.mpr fun field member => ?_
  have kept := passes_iff.mp (List.mem_filter.mp member).2
  exact passes_iff.mpr ⟨kept.1, not_lists_stripResponse⟩

theorem stripRequest_stripRequest (headers : Headers) :
    headers.stripRequest.stripRequest = headers.stripRequest := by
  rw [stripRequest_eq headers.stripRequest]
  refine List.filter_eq_self.mpr fun field member => ?_
  rw [stripRequest_eq] at member
  have kept := travels_iff.mp (List.mem_filter.mp member).2
  exact travels_iff.mpr ⟨kept.1, not_lists_stripRequest, kept.2.2⟩

/-- An answer keeps exactly the fields whose names belong to no single connection, neither by
themselves nor because the answer lists them.  A request loses two more.  Neither changes a second
time. -/
theorem strip_exact_and_idempotent (headers : Headers) :
    KeepsOf headers.stripResponse headers (fun name =>
      name ∉ ["connection", "keep-alive", "proxy-connection", "proxy-authenticate",
        "proxy-authorization", "te", "trailer", "transfer-encoding", "upgrade"] ∧
      ¬ headers.Lists name) ∧
    KeepsOf headers.stripRequest headers (fun name =>
      name ∉ ["connection", "keep-alive", "proxy-connection", "proxy-authenticate",
        "proxy-authorization", "te", "trailer", "transfer-encoding", "upgrade"] ∧
      ¬ headers.Lists name ∧ name ≠ "accept-encoding" ∧ name ≠ "x-masternode-direct") ∧
    headers.stripResponse.stripResponse = headers.stripResponse ∧
    headers.stripRequest.stripRequest = headers.stripRequest :=
  ⟨headers.stripResponse_keepsOf, headers.stripRequest_keepsOf,
    headers.stripResponse_stripResponse, headers.stripRequest_stripRequest⟩

/-- Listed in capitals, with blanks and beside an empty part and one that is no token. -/
example : stripRequest
    [⟨"connection", Bytes.ofText "close, ,\t X-Trace ,a b"⟩, ⟨"x-trace", [49]⟩, ⟨"a", [50]⟩,
      ⟨"accept-encoding", [51]⟩, ⟨"a", [52]⟩] = [⟨"a", [50]⟩, ⟨"a", [52]⟩] := by
  decide

end Headers

end CachingProxy
