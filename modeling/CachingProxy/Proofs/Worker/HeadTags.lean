import CachingProxy.Worker.ServiceWorker
import Mathlib.Data.List.Basic

/-!
# The opening head tag of a page

A place of a page opens its head if the tag is read there, by itself or with attributes behind white
space, and is closed somewhere (`OpensHead`).  The search goes on behind a tag that opens no head,
and misses none by it, because two tags never overlap (`not_startsWithTag_inside`).  So the script
stands behind the first place that opens the head.  Written with places into the whole page, where a
slice that is out of range is an outcome of its own, the search never comes to it
(`searchFrom_eq`).
-/

set_option autoImplicit false

namespace CachingProxy.Worker

variable {content : Bytes} {place start : Nat}

/-! ## Tags -/

theorem getElem?_of_startsWithTag (reads : startsWithTag content = true) (offset : Nat)
    (within : offset < 5) : (content[offset]?).map Text.lowerByte = tag[offset]? := by
  have same : (content.take 5).map Text.lowerByte = tag.map Text.lowerByte := eq_of_beq reads
  have folded : tag.map Text.lowerByte = tag := by decide
  rw [← folded, ← same, List.getElem?_map, List.getElem?_take_of_lt within]

/-- A tag begins with the only angle of a tag, so no other one begins inside. -/
theorem not_startsWithTag_inside (reads : startsWithTag (content.drop start) = true)
    (behind : start < place) (inside : place < start + 5) :
    startsWithTag (content.drop place) = false := by
  rw [Bool.eq_false_iff]
  intro again
  have first := getElem?_of_startsWithTag again 0 (by decide)
  have letter := getElem?_of_startsWithTag reads (place - start) (by omega)
  rw [List.getElem?_drop, Nat.add_zero] at first
  rw [List.getElem?_drop, Nat.add_sub_cancel' (Nat.le_of_lt behind), first] at letter
  have angle : ∀ offset < 5, 0 < offset → tag[0]? ≠ tag[offset]? := by decide
  exact angle (place - start) (by omega) (by omega) letter

theorem findTag_eq_none (missed : findTag content = none) (place : Nat) :
    startsWithTag (content.drop place) = false := by
  induction content generalizing place with
  | nil =>
      rw [List.drop_nil]
      rfl
  | cons b rest ih =>
      rw [findTag] at missed
      split at missed
      · cases missed
      · rename_i other
        cases place with
        | zero => simpa using other
        | succ place => exact ih (Option.map_eq_none_iff.mp missed) place

theorem findTag_eq_some (found : findTag content = some start) :
    startsWithTag (content.drop start) = true ∧
      ∀ earlier < start, startsWithTag (content.drop earlier) = false := by
  induction content generalizing start with
  | nil => cases found
  | cons b rest ih =>
      rw [findTag] at found
      split at found
      · rename_i here
        obtain rfl := Option.some.inj found
        exact ⟨here, fun earlier before => absurd before (Nat.not_lt_zero _)⟩
      · rename_i other
        obtain ⟨later, there, rfl⟩ := Option.map_eq_some_iff.mp found
        obtain ⟨reads, first⟩ := ih there
        refine ⟨reads, fun earlier before => ?_⟩
        cases earlier with
        | zero => simpa using other
        | succ earlier => exact first earlier (Nat.lt_of_succ_lt_succ before)

/-! ## Places that open the head -/

/-- The tag is read at a place, and it is closed at once, or white space stands behind it and it is
closed somewhere behind that. -/
def OpensHead (content : Bytes) (place : Nat) : Prop :=
  startsWithTag (content.drop place) = true ∧
    (content[place + 5]? = some closingByte ∨
      (content[place + 5]?).any Text.isSpaceByte = true ∧
        closingByte ∈ content.drop (place + 6))

instance (content : Bytes) (place : Nat) : Decidable (OpensHead content place) :=
  inferInstanceAs (Decidable (_ ∧ _))

theorem OpensHead.closing_mem (opens : OpensHead content place) :
    closingByte ∈ content.drop (place + 5) := by
  rcases opens.2 with atOnce | ⟨-, later⟩
  · refine List.mem_of_getElem? (i := 0) ?_
    rwa [List.getElem?_drop]
  · refine List.mem_of_mem_drop (i := 1) ?_
    rwa [List.drop_drop]

def FirstClosing (content : Bytes) (start close : Nat) : Prop :=
  start ≤ close ∧ content[close]? = some closingByte ∧
    ∀ earlier, start ≤ earlier → earlier < close → content[earlier]? ≠ some closingByte

theorem FirstClosing.unique {close other : Nat} (one : FirstClosing content start close)
    (two : FirstClosing content start other) : close = other := by
  rcases Nat.lt_trichotomy close other with before | same | behind
  · exact absurd one.2.1 (two.2.2 close one.1 before)
  · exact same
  · exact absurd two.2.1 (one.2.2 other two.1 behind)

/-- What the search comes to: the place just past the tag that opens the head first. -/
inductive Sought (content : Bytes) : Option Nat → Prop where
  | missing (headless : ∀ place, ¬ OpensHead content place) : Sought content none
  | found {place close : Nat} (opens : OpensHead content place)
      (first : ∀ earlier < place, ¬ OpensHead content earlier)
      (closes : FirstClosing content (place + 5) close) : Sought content (some (close + 1))

theorem opensHead_drop (content : Bytes) (start place : Nat) :
    OpensHead (content.drop start) place ↔ OpensHead content (start + place) := by
  simp only [OpensHead, List.drop_drop, List.getElem?_drop, Nat.add_assoc]

theorem FirstClosing.of_drop {close : Nat} (first : FirstClosing (content.drop start) place close) :
    FirstClosing content (start + place) (start + close) := by
  obtain ⟨behind, closes, unclosed⟩ := first
  rw [List.getElem?_drop] at closes
  refine ⟨Nat.add_le_add_left behind start, closes, fun earlier reached before => ?_⟩
  have apart := unclosed (earlier - start) (by omega) (by omega)
  rwa [List.getElem?_drop, Nat.add_sub_cancel' (by omega)] at apart

theorem firstClosing_of_findIdx? {close : Nat}
    (found : (content.drop start).findIdx? (fun c => c == closingByte) = some close) :
    FirstClosing content start (start + close) := by
  obtain ⟨within, closes, unclosed⟩ := List.findIdx?_eq_some_iff_getElem.mp found
  have whole : FirstClosing (content.drop start) 0 close := by
    refine ⟨Nat.zero_le _, ?_, fun earlier _ before => ?_⟩
    · rw [List.getElem?_eq_getElem within, eq_of_beq closes]
    · have other := unclosed earlier before
      rw [List.getElem?_eq_getElem (Nat.lt_trans before within)]
      simpa using other
  exact whole.of_drop

theorem not_opensHead_of_lt (found : findTag content = some start) :
    ∀ earlier < start, ¬ OpensHead content earlier := by
  intro earlier before opens
  have reads := opens.1
  rw [(findTag_eq_some found).2 earlier before] at reads
  cases reads

/-- A first tag that opens no head leaves none before the place where the search goes on. -/
theorem not_opensHead_before (found : findTag content = some start)
    (rejected : ¬ OpensHead content start) :
    ∀ earlier < start + 5, ¬ OpensHead content earlier := by
  intro earlier before opens
  rcases Nat.lt_trichotomy earlier start with ahead | same | behind
  · exact not_opensHead_of_lt found earlier ahead opens
  · exact rejected (same ▸ opens)
  · have again := opens.1
    rw [not_startsWithTag_inside (findTag_eq_some found).1 behind before] at again
    cases again

/-- No tag further on is closed either, so the search may end at a tag that is not closed. -/
theorem not_opensHead_of_unclosed (found : findTag content = some start)
    (unclosed : closingByte ∉ content.drop (start + 5)) (place : Nat) :
    ¬ OpensHead content place := by
  intro opens
  rcases Nat.lt_or_ge place start with ahead | reached
  · exact not_opensHead_of_lt found place ahead opens
  · have closes := opens.closing_mem
    rw [show place + 5 = start + 5 + (place - start) by omega, ← List.drop_drop] at closes
    exact unclosed (List.mem_of_mem_drop closes)

theorem opensHead_of_space {b : UInt8} {close : Nat}
    (reads : startsWithTag (content.drop start) = true) (byte : content[start + 5]? = some b)
    (space : Text.isSpaceByte b = true) (other : b ≠ closingByte)
    (closes : FirstClosing content (start + 5) close) : OpensHead content start := by
  have later : start + 5 < close := by
    refine Nat.lt_of_le_of_ne closes.1 fun same => other ?_
    have here := closes.2.1
    rw [← same, byte] at here
    exact Option.some.inj here
  refine ⟨reads, .inr ⟨?_, List.mem_of_getElem? (i := close - (start + 6)) ?_⟩⟩
  · rw [byte]
    exact space
  · rw [List.getElem?_drop, ← closes.2.1]
    congr 1
    omega

theorem Sought.of_drop {result : Option Nat} (sought : Sought (content.drop start) result)
    (none : ∀ earlier < start, ¬ OpensHead content earlier) :
    Sought content (result.map (start + ·)) := by
  cases sought with
  | missing headless =>
      refine .missing fun place opens => ?_
      rcases Nat.lt_or_ge place start with before | behind
      · exact none place before opens
      · refine headless (place - start) ((opensHead_drop ..).mpr ?_)
        rwa [Nat.add_sub_cancel' behind]
  | found opens first closes =>
      refine .found ((opensHead_drop ..).mp opens) (fun earlier before earlierOpens => ?_)
        closes.of_drop
      rcases Nat.lt_or_ge earlier start with ahead | behind
      · exact none earlier ahead earlierOpens
      · refine first (earlier - start) (by omega) ((opensHead_drop ..).mpr ?_)
        rwa [Nat.add_sub_cancel' behind]

theorem headEnd_of_findTag (found : findTag content = some start) :
    headEnd content =
      match content.drop (start + 5) with
      | [] => none
      | b :: rest =>
          if b = closingByte then some (start + 5 + 1)
          else if Text.isSpaceByte b then
            ((b :: rest).findIdx? fun c => c == closingByte).map fun close => start + 5 + close + 1
          else (headEnd (b :: rest)).map fun place => start + 5 + place := by
  rw [headEnd, found]
  dsimp only
  split <;> rename_i behind <;> simp only [behind]

theorem headEnd_sought (content : Bytes) : Sought content (headEnd content) := by
  induction content using headEnd.induct with
  | case1 content missed =>
      rw [headEnd, missed]
      refine .missing fun place opens => ?_
      have reads := opens.1
      rw [findTag_eq_none missed place] at reads
      cases reads
  | case2 content start found after ended =>
      rw [headEnd_of_findTag found, ended]
      have byte : content[start + 5]? = none := by rw [← List.head?_drop, ended, List.head?_nil]
      have headless : Sought (content.drop (start + 5)) none := by
        rw [ended]
        exact .missing fun place => by simp [OpensHead, startsWithTag]
      refine headless.of_drop (not_opensHead_before found ?_)
      simp [OpensHead, byte]
  | case3 content start found after rest behind =>
      have byte : content[start + 5]? = some closingByte := by
        rw [← List.head?_drop, behind, List.head?_cons]
      rw [headEnd_of_findTag found, behind]
      exact .found ⟨(findTag_eq_some found).1, .inl byte⟩ (not_opensHead_of_lt found)
        ⟨Nat.le_refl _, byte, fun earlier reached before => by omega⟩
  | case4 content start found after b rest behind other space =>
      have byte : content[start + 5]? = some b := by rw [← List.head?_drop, behind, List.head?_cons]
      rw [headEnd_of_findTag found, behind]
      simp only [if_neg other, if_pos space]
      rw [← behind]
      cases searched : (content.drop (start + 5)).findIdx? fun c => c == closingByte with
      | none =>
          refine .missing (not_opensHead_of_unclosed found fun member => ?_)
          have apart := List.findIdx?_eq_none_iff.mp searched closingByte member
          cases apart
      | some close =>
          have closes := firstClosing_of_findIdx? searched
          exact .found (opensHead_of_space (findTag_eq_some found).1 byte space other closes)
            (not_opensHead_of_lt found) closes
  | case5 content start found after b rest behind other solid ih =>
      have byte : content[start + 5]? = some b := by rw [← List.head?_drop, behind, List.head?_cons]
      rw [headEnd_of_findTag found, behind]
      simp only [if_neg other, if_neg solid]
      rw [← behind] at ih ⊢
      refine ih.of_drop (not_opensHead_before found ?_)
      simp [OpensHead, byte, other, solid]

/-! ## The search with places into the whole page -/

def sliceFrom (content : Bytes) (start : Nat) : Except Nat Bytes :=
  if start ≤ content.length then .ok (content.drop start) else .error start

def sliceTo (content : Bytes) (stop : Nat) : Except Nat Bytes :=
  if stop ≤ content.length then .ok (content.take stop) else .error stop

theorem sliceFrom_of_le (within : start ≤ content.length) :
    sliceFrom content start = .ok (content.drop start) := if_pos within

theorem sliceTo_of_le (within : start ≤ content.length) :
    sliceTo content start = .ok (content.take start) := if_pos within

/-- The search for the opening head tag from a place on; an error is a place out of range. -/
def searchFrom (content : Bytes) (start : Nat) : Except Nat (Option Nat) := do
  let suffix ← sliceFrom content start
  match findTag suffix with
  | none => return none
  | some offset =>
      let after := start + offset + 5
      match _byte : content[after]? with
      | none => return none
      | some b =>
          if b = closingByte then return some (after + 1)
          else if Text.isSpaceByte b then
            let suffix ← sliceFrom content after
            return (suffix.findIdx? fun c => c == closingByte).map fun close => after + close + 1
          else searchFrom content after
termination_by content.length - start
decreasing_by
  have := (List.getElem?_eq_some_iff.mp _byte).1
  omega

def injectChecked (script : Bytes) (content : Bytes) (contentType : String) : Except Nat Bytes := do
  if !isHtml contentType then return []
  match ← searchFrom content 0 with
  | none => return []
  | some place => return (← sliceTo content place) ++ script ++ (← sliceFrom content place)

/-- The search from a place on never leaves the page, and is the search of what is behind it. -/
theorem searchFrom_eq (within : start ≤ content.length) :
    searchFrom content start = .ok ((headEnd (content.drop start)).map (start + ·)) := by
  induction start using searchFrom.induct content with
  | case1 start ih =>
      rw [searchFrom, sliceFrom_of_le within]
      simp only [bind, Except.bind, pure, Except.pure]
      cases found : findTag (content.drop start) with
      | none => rw [headEnd, found, Option.map_none]
      | some offset =>
          have place : start + (offset + 5) = start + offset + 5 := by omega
          rw [headEnd_of_findTag found, List.drop_drop, place]
          dsimp only
          split
          · rename_i ended
            rw [List.drop_eq_nil_of_le (List.getElem?_eq_none_iff.mp ended), Option.map_none]
          · rename_i b byte
            obtain ⟨inside, here⟩ := List.getElem?_eq_some_iff.mp byte
            rw [sliceFrom_of_le (Nat.le_of_lt inside), ih offset b byte (Nat.le_of_lt inside),
              List.drop_eq_getElem_cons inside, here]
            by_cases closes : b = closingByte
            · simp only [if_pos closes, Option.map_some, Nat.add_assoc]
            · by_cases space : Text.isSpaceByte b = true
              · simp only [if_neg closes, if_pos space, Option.map_map, Function.comp_def,
                  Nat.add_assoc]
              · simp only [if_neg closes, if_neg space, Option.map_map, Function.comp_def,
                  Nat.add_assoc]

theorem headEnd_le {stop : Nat} (found : headEnd content = some stop) : stop ≤ content.length := by
  have sought := headEnd_sought content
  rw [found] at sought
  cases sought with
  | found opens first closes => exact (List.getElem?_eq_some_iff.mp closes.2.1).1

theorem injectChecked_eq (script content : Bytes) (contentType : String) :
    injectChecked script content contentType = .ok (injectScript script content contentType) := by
  have searched := searchFrom_eq (Nat.zero_le content.length)
  simp only [List.drop_zero, Nat.zero_add, Option.map_id'] at searched
  rw [injectChecked, injectScript, searched]
  cases isHtml contentType with
  | false => rfl
  | true =>
      cases found : headEnd content with
      | none => rfl
      | some stop =>
          have within := headEnd_le found
          simp only [bind, Except.bind, sliceTo_of_le within, sliceFrom_of_le within]
          rfl

/-! ## The page with the script -/

theorem script_ne_nil (worker : ServiceWorker) : worker.script ≠ [] := by
  have closing : '>' ∈ (registrationScript worker.route).toList := by
    unfold registrationScript
    simp only [String.toList_append, List.mem_append]
    exact .inr (by decide)
  have written := Char.utf8Size_pos '>'
  rw [← String.length_utf8EncodeChar] at written
  intro empty
  exact List.ne_nil_of_length_pos written (List.flatMap_eq_nil_iff.mp empty '>' closing)

theorem inject_cases (worker : ServiceWorker) (content : Bytes) (contentType : String) :
    ((isHtml contentType = false ∨ ∀ place, ¬ OpensHead content place) ∧
      worker.inject content contentType = []) ∨
    (isHtml contentType = true ∧ ∃ place close, OpensHead content place ∧
      (∀ earlier < place, ¬ OpensHead content earlier) ∧ FirstClosing content (place + 5) close ∧
      worker.inject content contentType =
        content.take (close + 1) ++ worker.script ++ content.drop (close + 1)) := by
  rw [ServiceWorker.inject, injectScript]
  cases html : isHtml contentType with
  | false => exact .inl ⟨.inl rfl, rfl⟩
  | true =>
      have sought := headEnd_sought content
      cases searched : headEnd content with
      | none =>
          rw [searched] at sought
          cases sought with
          | missing headless => exact .inl ⟨.inr headless, rfl⟩
      | some stop =>
          rw [searched] at sought
          cases sought with
          | @found place close opens first closes =>
              exact .inr ⟨rfl, place, close, opens, first, closes, rfl⟩

/-- The script stands behind the first tag that opens the head.  The result is empty exactly for
content of another type and for content where no place opens it, so an empty result means unchanged
content, and no slice that is taken on the way is out of range. -/
theorem script_behind_first_head (worker : ServiceWorker) (content : Bytes) (contentType : String) :
    (worker.inject content contentType = [] ↔
      isHtml contentType = false ∨ ∀ place, ¬ OpensHead content place) ∧
    (∀ place, isHtml contentType = true → OpensHead content place →
      (∀ earlier < place, ¬ OpensHead content earlier) →
        ∃ close, FirstClosing content (place + 5) close ∧
          worker.inject content contentType =
            content.take (close + 1) ++ worker.script ++ content.drop (close + 1)) ∧
    injectChecked worker.script content contentType = .ok (worker.inject content contentType) := by
  refine ⟨?_, fun place html opens first => ?_, injectChecked_eq ..⟩
  · rcases inject_cases worker content contentType with
      ⟨unchanged, empty⟩ | ⟨html, place, close, opens, -, -, changed⟩
    · exact iff_of_true empty unchanged
    · refine iff_of_false ?_ ?_
      · rw [changed]
        simp [script_ne_nil]
      · rintro (other | headless)
        · rw [html] at other
          cases other
        · exact headless place opens
  · rcases inject_cases worker content contentType with
      ⟨other | headless, -⟩ | ⟨-, other, close, opens', first', closes, changed⟩
    · rw [html] at other
      cases other
    · exact absurd opens (headless place)
    · obtain rfl : other = place := by
        rcases Nat.lt_trichotomy other place with before | same | behind
        · exact absurd opens' (first other before)
        · exact same
        · exact absurd opens (first' place behind)
      exact ⟨close, closes, changed⟩

/-- A longer name is another element, letters of either case are read, and a line end begins the
attributes. -/
theorem script_behind_head_with_attribute :
    let page := Bytes.ofText "<header><HeAd\nid><title>"
    let worker : ServiceWorker := ⟨[], "/sw.js"⟩
    isHtml "text/html; charset=utf-8" = true ∧ OpensHead page 8 ∧
      (∀ earlier < 8, ¬ OpensHead page earlier) ∧ FirstClosing page 13 16 ∧
      worker.inject page "text/html; charset=utf-8" =
        page.take 17 ++ worker.script ++ page.drop 17 ∧
      worker.inject page "text/html; charset=utf-8" = Bytes.ofText
        ("<header><HeAd\nid><script>if ('serviceWorker' in navigator) \x7b " ++
          "navigator.serviceWorker.register('/sw.js'); \x7d</script><title>") := by
  intro page worker
  have html : isHtml "text/html; charset=utf-8" = true := by decide
  have opens : OpensHead page 8 := by decide
  have first : ∀ earlier < 8, ¬ OpensHead page earlier := by decide
  have unclosed : ∀ earlier < 16, 13 ≤ earlier → page[earlier]? ≠ some closingByte := by decide
  have closes : FirstClosing page 13 16 :=
    ⟨by decide, by decide, fun earlier reached before => unclosed earlier before reached⟩
  obtain ⟨close, closes', changed⟩ := (script_behind_first_head worker page
    "text/html; charset=utf-8").2.1 8 html opens first
  obtain rfl : close = 16 := closes'.unique closes
  refine ⟨html, opens, first, closes, changed, ?_⟩
  rw [changed]
  decide +kernel

end CachingProxy.Worker
