import CachingProxy.Config.Settings
import CachingProxy.Worker.Injection
import Mathlib.Data.List.Basic

/-!
# The script that registers the worker

The route stands in the script as a literal in single quotes, its own quotes behind backslashes.
Different routes make different scripts, and a route without a backslash is read back from its
literal.  A backslash of the route is not escaped, and neither is an end tag.  With the one the
literal is read as something else or does not end at its quote, because there is no room for an
escape (`Worker.length_of_readLiteral`); with the other the element ends early.
-/

set_option autoImplicit false

namespace CachingProxy

namespace Text

variable {α : Type} {part xs ys : List α} {s : α}

/-! ## Stretches of a text -/

theorem infix_append_cons_iff (free : s ∉ part) :
    part <:+: xs ++ s :: ys ↔ part <:+: xs ∨ part <:+: ys := by
  constructor
  · rintro ⟨before, after, parts⟩
    rcases List.append_eq_append_iff.mp parts with ⟨rest, rfl, -⟩ | ⟨rest, whole, behind⟩
    · exact .inl ⟨before, rest, rfl⟩
    cases rest with
    | nil =>
        rw [List.append_nil] at whole
        exact .inl ⟨before, [], by rw [List.append_nil, whole]⟩
    | cons t rest =>
        obtain ⟨rfl, rfl⟩ := List.cons.inj behind
        rcases List.append_eq_append_iff.mp whole with ⟨inner, -, rfl⟩ | ⟨inner, -, ends⟩
        · exact absurd (List.mem_append_right inner List.mem_cons_self) free
        · cases inner with
          | nil =>
              rw [List.nil_append] at ends
              exact absurd (ends ▸ List.mem_cons_self) free
          | cons t inner =>
              obtain ⟨-, rfl⟩ := List.cons.inj ends
              exact .inr ⟨inner, after, rfl⟩
  · rintro (left | right)
    · exact left.trans (List.prefix_append xs (s :: ys)).isInfix
    · exact right.trans ((List.suffix_cons s ys).trans (List.suffix_append xs (s :: ys))).isInfix

def behind? [BEq α] (mark : List α) : List α → Option (List α)
  | [] => if mark.isEmpty then some [] else none
  | x :: xs =>
      if mark.isPrefixOf (x :: xs) then some ((x :: xs).drop mark.length) else behind? mark xs

/-- A mark that is read in a text is read first there, whatever follows the text. -/
theorem behind?_append [BEq α] [LawfulBEq α] {mark text rest : List α}
    (found : behind? mark text = some rest) (tail : List α) :
    mark.length ≤ text.length ∧ behind? mark (text ++ tail) = some (rest ++ tail) := by
  induction text with
  | nil =>
      cases mark with
      | nil =>
          obtain rfl := Option.some.inj found
          refine ⟨Nat.le_refl _, ?_⟩
          cases tail <;> rfl
      | cons m mark => cases found
  | cons x text ih =>
      rw [behind?] at found
      split at found
      · rename_i here
        obtain rfl := Option.some.inj found
        have leads := List.isPrefixOf_iff_prefix.mp here
        refine ⟨leads.length_le, ?_⟩
        have still := List.isPrefixOf_iff_prefix.mpr (leads.trans (List.prefix_append _ tail))
        rw [List.cons_append] at still ⊢
        rw [behind?, if_pos still, ← List.cons_append,
          List.drop_append_of_le_length leads.length_le]
      · rename_i elsewhere
        obtain ⟨short, later⟩ := ih found
        have long : mark.length ≤ (x :: text).length := Nat.le_succ_of_le short
        refine ⟨long, ?_⟩
        rw [List.cons_append, behind?, if_neg ?_, later]
        intro here
        have leads := List.isPrefixOf_iff_prefix.mp here
        exact elsewhere (List.isPrefixOf_iff_prefix.mpr
          (List.prefix_of_prefix_length_le leads (List.prefix_append (x :: text) tail) long))

end Text

namespace Worker

variable {route tail : List Char} {c : Char}

/-! ## Literals -/

/-- Reads a literal up to its closing quote: what it stands for, and what follows.  A backslash
escapes the character behind it. -/
def readLiteral : List Char → Option (List Char × List Char)
  | [] => none
  | c :: rest =>
      if c = '\'' then some ([], rest)
      else if c = '\\' then
        match rest with
        | [] => none
        | d :: rest => (readLiteral rest).map fun read => (d :: read.1, read.2)
      else (readLiteral rest).map fun read => (c :: read.1, read.2)

theorem readLiteral_quote (rest : List Char) : readLiteral ('\'' :: rest) = some ([], rest) := by
  rw [readLiteral.eq_def]
  rfl

theorem readLiteral_escaped (c : Char) (rest : List Char) :
    readLiteral ('\\' :: c :: rest) =
      (readLiteral rest).map fun read => (c :: read.1, read.2) := by
  rw [readLiteral.eq_def]
  rfl

theorem readLiteral_plain (quote : c ≠ '\'') (slash : c ≠ '\\') (rest : List Char) :
    readLiteral (c :: rest) = (readLiteral rest).map fun read => (c :: read.1, read.2) := by
  rw [readLiteral.eq_def]
  simp only [if_neg quote, if_neg slash]

theorem escapeRoute_quote (route : List Char) :
    escapeRoute ('\'' :: route) = '\\' :: '\'' :: escapeRoute route := rfl

theorem escapeRoute_plain (quote : c ≠ '\'') (route : List Char) :
    escapeRoute (c :: route) = c :: escapeRoute route := by
  rw [escapeRoute, List.flatMap_cons, if_neg quote]
  rfl

theorem readLiteral_escapeRoute (plain : '\\' ∉ route) (tail : List Char) :
    readLiteral (escapeRoute route ++ '\'' :: tail) = some (route, tail) := by
  induction route with
  | nil => exact readLiteral_quote tail
  | cons c route ih =>
      rw [List.mem_cons, not_or] at plain
      have rest := ih plain.2
      by_cases quote : c = '\''
      · rw [quote, escapeRoute_quote, List.cons_append, List.cons_append, readLiteral_escaped, rest]
        rfl
      · rw [escapeRoute_plain quote, List.cons_append, readLiteral_plain quote (Ne.symm plain.1),
          rest]
        rfl

/-- No character is a quote and a backslash together. -/
theorem count_special_cons_le (c : Char) (read : List Char) :
    (c :: read).count '\'' + (c :: read).count '\\' ≤ read.count '\'' + read.count '\\' + 1 := by
  by_cases quote : c = '\''
  · rw [quote, List.count_cons_self, List.count_cons_of_ne (by decide)]
    omega
  · rw [List.count_cons_of_ne quote]
    have counted := List.count_cons (a := '\\') (b := c) (l := read)
    split at counted <;> omega

theorem length_of_readLiteral {text read rest : List Char}
    (literal : readLiteral text = some (read, rest)) :
    read.length + read.count '\'' + read.count '\\' + rest.length < text.length := by
  induction text using readLiteral.induct generalizing read with
  | case1 => cases literal
  | case2 text =>
      rw [readLiteral_quote] at literal
      obtain ⟨rfl, rfl⟩ := Prod.mk.inj (Option.some.inj literal)
      simp
  | case3 => cases literal
  | case4 d text _ ih =>
      rw [readLiteral_escaped] at literal
      obtain ⟨⟨inner, behind⟩, reads, whole⟩ := Option.map_eq_some_iff.mp literal
      obtain ⟨rfl, rfl⟩ := Prod.mk.inj whole
      have shorter := ih reads
      have counted := count_special_cons_le d inner
      simp only [List.length_cons] at shorter ⊢
      omega
  | case5 c text quote slash ih =>
      rw [readLiteral_plain quote slash] at literal
      obtain ⟨⟨inner, behind⟩, reads, whole⟩ := Option.map_eq_some_iff.mp literal
      obtain ⟨rfl, rfl⟩ := Prod.mk.inj whole
      have shorter := ih reads
      rw [List.count_cons_of_ne quote, List.count_cons_of_ne slash]
      simp only [List.length_cons] at shorter ⊢
      omega

theorem length_escapeRoute (route : List Char) :
    (escapeRoute route).length = route.length + route.count '\'' := by
  induction route with
  | nil => rfl
  | cons c route ih =>
      by_cases quote : c = '\''
      · rw [quote, escapeRoute_quote, List.count_cons_self]
        simp only [List.length_cons, ih]
        omega
      · rw [escapeRoute_plain quote, List.count_cons_of_ne quote]
        simp only [List.length_cons, ih]
        omega

/-- A route with a backslash is not read back: there is no room for its escape. -/
theorem readLiteral_escapeRoute_iff (route tail : List Char) :
    readLiteral (escapeRoute route ++ '\'' :: tail) = some (route, tail) ↔ '\\' ∉ route := by
  refine ⟨fun read slash => ?_, fun plain => readLiteral_escapeRoute plain tail⟩
  have long := length_of_readLiteral read
  rw [List.length_append, length_escapeRoute, List.length_cons] at long
  have counted := List.count_pos_iff.mpr slash
  omega

theorem escapeRoute_ne_quote (route rest : List Char) : escapeRoute route ≠ '\'' :: rest := by
  intro begins
  cases route with
  | nil => cases begins
  | cons c route =>
      by_cases quote : c = '\''
      · rw [quote, escapeRoute_quote] at begins
        exact absurd (List.cons.inj begins).1 (by decide)
      · rw [escapeRoute_plain quote] at begins
        exact quote (List.cons.inj begins).1

theorem escapeRoute_cons_ne_nil (c : Char) (route : List Char) : escapeRoute (c :: route) ≠ [] := by
  intro empty
  have counted := congrArg List.length empty
  rw [length_escapeRoute, List.length_cons, List.length_nil] at counted
  omega

theorem escapeRoute_injective : Function.Injective escapeRoute := by
  intro route
  induction route with
  | nil =>
      intro other same
      cases other with
      | nil => rfl
      | cons d other => exact absurd same.symm (escapeRoute_cons_ne_nil d other)
  | cons c route ih =>
      intro other same
      cases other with
      | nil => exact absurd same (escapeRoute_cons_ne_nil c route)
      | cons d other =>
          by_cases first : c = '\'' <;> by_cases second : d = '\''
          · rw [first, second, escapeRoute_quote, escapeRoute_quote] at same
            rw [first, second, ih (List.cons.inj (List.cons.inj same).2).2]
          · rw [first, escapeRoute_quote, escapeRoute_plain second] at same
            exact absurd (List.cons.inj same).2.symm (escapeRoute_ne_quote other _)
          · rw [second, escapeRoute_quote, escapeRoute_plain first] at same
            exact absurd (List.cons.inj same).2 (escapeRoute_ne_quote route _)
          · rw [escapeRoute_plain first, escapeRoute_plain second] at same
            rw [(List.cons.inj same).1, ih (List.cons.inj same).2]

theorem infix_append_escapeRoute_iff {part : List Char} (quoteless : '\'' ∉ part)
    (slashless : '\\' ∉ part) (before route : List Char) :
    part <:+: before ++ escapeRoute route ↔ part <:+: before ++ route := by
  induction route generalizing before with
  | nil => exact Iff.rfl
  | cons c route ih =>
      by_cases quote : c = '\''
      · have inside := ih []
        rw [List.nil_append, List.nil_append] at inside
        have behind : part <:+: [] ++ '\'' :: escapeRoute route ↔
            part <:+: [] ∨ part <:+: escapeRoute route :=
          Text.infix_append_cons_iff quoteless
        rw [List.nil_append] at behind
        rw [quote, escapeRoute_quote, Text.infix_append_cons_iff slashless, behind, inside,
          Text.infix_append_cons_iff quoteless, List.infix_nil]
        constructor
        · rintro (left | rfl | right)
          · exact .inl left
          · exact .inl List.nil_infix
          · exact .inr right
        · rintro (left | right)
          · exact .inl left
          · exact .inr (.inr right)
      · have moved := ih (before ++ [c])
        rwa [List.append_assoc, List.append_assoc, List.singleton_append, List.singleton_append,
          ← escapeRoute_plain quote] at moved

/-! ## The element -/

def registeredLiteral (script : String) : Option (List Char × List Char) :=
  match Text.behind? "register(".toList script.toList with
  | some ('\'' :: literal) => readLiteral literal
  | _ => none

def elementText (element : String) : List Char :=
  (element.toList.drop "<script>".toList.length).take
    (element.toList.length - "<script>".toList.length - "</script>".toList.length)

/-- What an end tag begins with, in letters of either case. -/
def BeginsEndTag (part : List Char) : Prop := Text.lower part = "</script".toList

def callStart : List Char :=
  "if ('serviceWorker' in navigator) \x7b navigator.serviceWorker.register(".toList

def callEnd : List Char := "); \x7d".toList

theorem toList_pieces {before behind : String} {first last opening closing : List Char}
    (starts : before.toList = opening ++ (first ++ ['\'']))
    (ends : behind.toList = '\'' :: (last ++ closing)) (literal : List Char) :
    (before ++ String.ofList literal ++ behind).toList =
      opening ++ ((first ++ '\'' :: (literal ++ '\'' :: last)) ++ closing) := by
  rw [String.toList_append, String.toList_append, String.toList_ofList, starts, ends]
  simp only [List.append_assoc, List.cons_append, List.nil_append]

theorem registrationScript_toList (route : String) :
    (registrationScript route).toList =
      "<script>".toList ++
        ((callStart ++ '\'' :: (escapeRoute route.toList ++ '\'' :: callEnd)) ++
          "</script>".toList) :=
  toList_pieces (by decide +kernel) (by decide +kernel) _

theorem registeredLiteral_registrationScript (route : String) :
    registeredLiteral (registrationScript route) =
      readLiteral (escapeRoute route.toList ++ '\'' :: (callEnd ++ "</script>".toList)) := by
  have called : Text.behind? "register(".toList ("<script>".toList ++ callStart) = some [] := by
    decide +kernel
  have found := (Text.behind?_append called
    ('\'' :: (escapeRoute route.toList ++ '\'' :: (callEnd ++ "</script>".toList)))).2
  have script : (registrationScript route).toList = "<script>".toList ++ callStart ++
      '\'' :: (escapeRoute route.toList ++ '\'' :: (callEnd ++ "</script>".toList)) := by
    rw [registrationScript_toList]
    simp only [List.append_assoc, List.cons_append]
  rw [registeredLiteral, script, found]
  rfl

theorem elementText_registrationScript (route : String) :
    elementText (registrationScript route) =
      callStart ++ '\'' :: (escapeRoute route.toList ++ '\'' :: callEnd) := by
  rw [elementText, registrationScript_toList, List.drop_left, List.length_append,
    List.length_append, Nat.add_sub_cancel_left, Nat.add_sub_cancel, List.take_left]

theorem BeginsEndTag.not_mem {part : List Char} (begins : BeginsEndTag part) {c : Char}
    (other : Text.lowerChar c ∉ "</script".toList) : c ∉ part := by
  intro inside
  exact other (begins ▸ List.mem_map_of_mem inside)

theorem BeginsEndTag.not_infix {part text : List Char} (begins : BeginsEndTag part)
    (without : '<' ∉ Text.lower text) : ¬ part <:+: text := by
  intro inside
  have angle : '<' ∈ Text.lower part := by
    rw [begins]
    decide
  exact without ((inside.map Text.lowerChar).subset angle)

theorem infix_elementText_iff {part : List Char} (begins : BeginsEndTag part) (route : String) :
    part <:+: elementText (registrationScript route) ↔ part <:+: route.toList := by
  have quoteless : '\'' ∉ part := begins.not_mem (by decide)
  have slashless : '\\' ∉ part := begins.not_mem (by decide)
  have before : ¬ part <:+: callStart := begins.not_infix (by decide +kernel)
  have behind : ¬ part <:+: callEnd := begins.not_infix (by decide)
  have escaped := infix_append_escapeRoute_iff quoteless slashless [] route.toList
  rw [elementText_registrationScript, Text.infix_append_cons_iff quoteless,
    Text.infix_append_cons_iff quoteless]
  simp only [before, behind, false_or, or_false]
  exact escaped

theorem registrationScript_injective : Function.Injective registrationScript := by
  intro route other same
  have texts := congrArg String.toList same
  rw [registrationScript_toList, registrationScript_toList] at texts
  have calls := List.append_cancel_right (List.append_cancel_left texts)
  have literals := (List.cons.inj (List.append_cancel_left calls)).2
  exact String.toList_injective (escapeRoute_injective (List.append_cancel_right literals))

/-- For every route: the literal that the script registers is read back as the route, and ends at
the quote before the end of the call, exactly if the route holds no backslash.  The element holds
the beginning of an end tag exactly where the route does.  Different routes make different
scripts. -/
theorem registration_read_back_iff (route : String) :
    (registeredLiteral (registrationScript route) =
        some (route.toList, "); \x7d</script>".toList) ↔ '\\' ∉ route.toList) ∧
    (∀ part, BeginsEndTag part →
      (part <:+: elementText (registrationScript route) ↔ part <:+: route.toList)) ∧
    ∀ other, registrationScript other = registrationScript route → other = route := by
  have ends : "); \x7d</script>".toList = callEnd ++ "</script>".toList := by decide
  refine ⟨?_, fun part begins => infix_elementText_iff begins route,
    fun other same => registrationScript_injective same⟩
  rw [registeredLiteral_registrationScript, ends]
  exact readLiteral_escapeRoute_iff ..

/-- A route with a quote is read back, and no end tag begins in its element. -/
theorem quoted_route_read_back :
    BeginsEndTag "</SCRIPT".toList ∧
      registeredLiteral (registrationScript "/it's.js") =
        some ("/it's.js".toList, "); \x7d</script>".toList) ∧
      ¬ "</SCRIPT".toList <:+: elementText (registrationScript "/it's.js") := by
  have begins : BeginsEndTag "</SCRIPT".toList := by
    show Text.lower _ = _
    decide
  have slashless : '\\' ∉ "/it's.js".toList := by decide +kernel
  have absent : ¬ "</SCRIPT".toList <:+: "/it's.js".toList := by decide +kernel
  obtain ⟨literal, element, -⟩ := registration_read_back_iff "/it's.js"
  exact ⟨begins, literal.mpr slashless, fun inside => absent ((element _ begins).mp inside)⟩

def settingsAt (route : String) : Config :=
  { protectedDomains := [⟨"example.com", "10.0.0.1", 80⟩]
    serviceWorker := { enabled := true, path := "worker.js", route } }

/-- A backslash before the quote leaves the literal open, one before a quote of the route closes it
there, and an end tag closes the element. -/
theorem accepted_routes_not_quoted :
    ((settingsAt "/a\\").validate = .ok () ∧
      registeredLiteral (registrationScript "/a\\") = none) ∧
    ((settingsAt "/\\');run();//").validate = .ok () ∧
      registeredLiteral (registrationScript "/\\');run();//") =
        some ("/\\".toList, ");run();//'); \x7d</script>".toList)) ∧
    ((settingsAt "/</script>").validate = .ok () ∧
      "</script".toList <:+: elementText (registrationScript "/</script>")) := by
  decide +kernel

end Worker

end CachingProxy
