/-
**Messages without a body.**

A callback without a body dispatches a message that is undefined or null. The trigger engine takes
it for the empty text, except where a keyword is a regular expression: that is tested on the message
as it came, and the test makes the text `undefined` or `null` of it.

* `someKeyword_eq_iff` compares two searches through the keywords;
* `bodyless_iff` says when a message without a body triggers what an empty one triggers, and
  `bodyless_triggers` is an expression that only the former matches.
-/

import WaAutomation.Model.Automations
import WaAutomation.Model.Matching

set_option linter.unusedSectionVars false

namespace WaAutomation.Bodyless

open TriggerEngine

/-! ### The keywords -/

/-- The keywords that are read: the texts up to the first entry that is none. -/
def texts : List Json → List String
  | .str raw :: rest => raw :: texts rest
  | _ => []

section Keywords

variable {holds other : String → Bool}

theorem someKeyword_true {keywords : List Json} :
    someKeyword holds keywords = .ok true ↔ ∃ raw ∈ texts keywords, holds raw = true := by
  induction keywords with
  | nil => simp [someKeyword, texts]
  | cons keyword rest ih =>
    cases keyword with
    | str raw =>
      simp only [someKeyword, texts, List.exists_mem_cons_iff]
      by_cases here : holds raw = true
      · simp [here]
      · simp [here, ih]
    | _ => simp [someKeyword, texts]

/-- Without a keyword that matches, a search ends in the same way. -/
theorem someKeyword_none {keywords : List Json}
    (none : ¬∃ raw ∈ texts keywords, holds raw = true) :
    someKeyword holds keywords = someKeyword (fun _ => false) keywords := by
  induction keywords with
  | nil => rfl
  | cons keyword rest ih =>
    cases keyword with
    | str raw =>
      simp only [texts, List.exists_mem_cons_iff, not_or] at none
      simp only [someKeyword, if_neg none.1, Bool.false_eq_true, if_false]
      exact ih none.2
    | _ => rfl

/-- Two searches end alike exactly when both match a keyword or neither does. -/
theorem someKeyword_eq_iff {keywords : List Json} :
    someKeyword holds keywords = someKeyword other keywords ↔
      ((∃ raw ∈ texts keywords, holds raw = true) ↔
        ∃ raw ∈ texts keywords, other raw = true) := by
  constructor
  · intro same
    rw [← someKeyword_true, ← someKeyword_true, same]
  · intro alike
    by_cases hit : ∃ raw ∈ texts keywords, holds raw = true
    · rw [someKeyword_true.mpr hit, someKeyword_true.mpr (alike.mp hit)]
    · rw [someKeyword_none hit, someKeyword_none (hit ∘ alike.mpr)]

end Keywords

/-! ### Two contexts that differ in the message -/

section Messages

variable (h : Helpers) (config ctx : Record)

/-- The keywords that are read of an array. -/
def textsOf : Option Json → List String
  | some (.arr keywords) => texts keywords
  | _ => []

/-- The keywords of a config. -/
def keywordsOf : List String := textsOf (firstTruthy (config.get "keywords") (some (.arr [])))

/-- The expression of some keyword matches the text. -/
def Hits (text : String) : Prop :=
  ∃ raw ∈ keywordsOf config, h.regexTest raw text = some true

/-- The sender or the group does not fit, whatever the message is. -/
def Filtered : Prop := wrongSender config ctx = true ∨ wrongGroup config ctx = true

variable {h config ctx}

theorem wrongSender_put (message : Option Json) :
    wrongSender config (ctx.put "message" message) = wrongSender config ctx := by
  unfold wrongSender
  rw [Record.get_put_other (by decide)]

theorem wrongGroup_put (message : Option Json) :
    wrongGroup config (ctx.put "message" message) = wrongGroup config ctx := by
  unfold wrongGroup
  rw [Record.get_put_other (by decide)]

theorem firstTruthy_regex : firstTruthy (config.get "match_type") (some (.str "contains")) =
    some (.str "regex") ↔ config.get "match_type" = some (.str "regex") := by
  cases config.get "match_type" with
  | none => simp [firstTruthy]
  | some value =>
    by_cases truthy : value.truthy = true
    · simp [firstTruthy, truthy]
    · simp only [firstTruthy, truthy, Bool.false_eq_true, if_false, Option.some.injEq,
        Json.str.injEq, String.reduceEq, false_iff]
      rintro rfl
      exact truthy rfl

/-- Only an expression reads the message as it came. -/
theorem matchesKeyword_other {matchType : Option Json} (other : matchType ≠ some (.str "regex"))
    (first second : Option Json) (text : String) :
    matchesKeyword h matchType first text = matchesKeyword h matchType second text := by
  funext raw
  unfold matchesKeyword
  split
  · rfl
  · rfl
  · exact absurd rfl other
  · rfl

/-- An expression is tested on the message as it came. -/
theorem matchesKeyword_regex (message : Option Json) (text raw : String) :
    matchesKeyword h (some (.str "regex")) message text raw = true ↔
      h.regexTest raw (stringOf h message) = some true := by
  show (h.regexTest raw (stringOf h message)).getD false = true ↔ _
  cases h.regexTest raw (stringOf h message) with
  | none => simp
  | some result => simp

/-- The searches for two messages of one text. -/
theorem searchKeywords_eq_iff {matchType first second : Option Json} {text : String}
    (lower : lowered h first = .ok text) (lower' : lowered h second = .ok text)
    (keywords : Option Json) :
    searchKeywords h matchType first keywords = searchKeywords h matchType second keywords ↔
      matchType ≠ some (.str "regex") ∨
        ((∃ raw ∈ textsOf keywords, h.regexTest raw (stringOf h first) = some true) ↔
          ∃ raw ∈ textsOf keywords, h.regexTest raw (stringOf h second) = some true) := by
  have nothing : textsOf keywords = [] → (matchType ≠ some (.str "regex") ∨
      ((∃ raw ∈ textsOf keywords, h.regexTest raw (stringOf h first) = some true) ↔
        ∃ raw ∈ textsOf keywords, h.regexTest raw (stringOf h second) = some true)) := by
    intro empty
    right
    simp only [empty, List.not_mem_nil, false_and, exists_false]
  have noSome_same : noSome h first = noSome h second := by
    unfold noSome
    rw [lower, lower']
  match keywords with
  | none => exact ⟨fun _ => nothing rfl, fun _ => noSome_same⟩
  | some (.arr []) => exact ⟨fun _ => nothing rfl, fun _ => rfl⟩
  | some (.arr (keyword :: rest)) =>
    simp only [searchKeywords, lower, lower']
    show someKeyword _ _ = someKeyword _ _ ↔ _
    by_cases regex : matchType = some (.str "regex")
    · subst regex
      rw [someKeyword_eq_iff, or_iff_right (not_not_intro rfl)]
      simp only [matchesKeyword_regex, textsOf]
    · rw [matchesKeyword_other regex first second text]
      exact ⟨fun _ => .inl regex, fun _ => rfl⟩
  | some (.obj fields) =>
    refine ⟨fun _ => nothing rfl, fun _ => ?_⟩
    simp only [searchKeywords, noSome_same]
  | some .null => exact ⟨fun _ => nothing rfl, fun _ => noSome_same⟩
  | some (.bool _) => exact ⟨fun _ => nothing rfl, fun _ => noSome_same⟩
  | some (.num _) => exact ⟨fun _ => nothing rfl, fun _ => noSome_same⟩
  | some (.str _) => exact ⟨fun _ => nothing rfl, fun _ => noSome_same⟩

/-- **Two messages of one text** trigger alike exactly when the sender or the group does not fit,
when keywords are no expressions, or when an expression matches both of them or neither. -/
theorem matchesMessage_eq_iff {first second : Option Json} {text : String}
    (lower : lowered h first = .ok text) (lower' : lowered h second = .ok text) :
    matchesMessage h config (ctx.put "message" first) =
        matchesMessage h config (ctx.put "message" second) ↔
      Filtered config ctx ∨ config.get "match_type" ≠ some (.str "regex") ∨
        (Hits h config (stringOf h first) ↔ Hits h config (stringOf h second)) := by
  unfold matchesMessage Filtered
  simp only [wrongSender_put, wrongGroup_put, Record.get_put]
  by_cases sender : wrongSender config ctx = true
  · simp only [sender, if_true, true_or]
  by_cases group : wrongGroup config ctx = true
  · simp only [sender, group, if_true, true_or, or_true, if_false, Bool.false_eq_true]
  rw [if_neg sender, if_neg sender, if_neg group, if_neg group,
    or_iff_right (not_or.mpr ⟨sender, group⟩), searchKeywords_eq_iff lower lower', Ne,
    firstTruthy_regex]
  rfl

end Messages

/-- **A message without a body** triggers what an empty one triggers exactly when the sender or the
group does not fit, when keywords are no expressions, or when the expression of some keyword matches
the text `undefined`, or `null`, as the expression of some keyword matches the empty text. -/
theorem bodyless_iff (h : Helpers) (config ctx : Record) :
    (matchesMessage h config (ctx.put "message" none) =
        matchesMessage h config (ctx.put "message" (some (.str ""))) ↔
      Filtered config ctx ∨ config.get "match_type" ≠ some (.str "regex") ∨
        (Hits h config "undefined" ↔ Hits h config "")) ∧
    (matchesMessage h config (ctx.put "message" (some .null)) =
        matchesMessage h config (ctx.put "message" (some (.str ""))) ↔
      Filtered config ctx ∨ config.get "match_type" ≠ some (.str "regex") ∨
        (Hits h config "null" ↔ Hits h config "")) :=
  ⟨matchesMessage_eq_iff rfl rfl, matchesMessage_eq_iff rfl rfl⟩

namespace Example

/-- Expressions without special characters, which match the texts they occur in. -/
def helpers : Helpers :=
  { WaAutomation.Example.helpers with
    regexTest := fun raw text => some (decide (raw.toList <:+: text.toList)) }

def config : Record := [("keywords", .arr [.str "fine"]), ("match_type", .str "regex")]

def ctx : Record := [("from", .str "628123456789")]

end Example

/-- **A message without a body triggers an automation that an empty one does not**: the expression
is tested on the text `undefined`. -/
theorem bodyless_triggers :
    matchesMessage Example.helpers Example.config (Example.ctx.put "message" none) = .ok true ∧
      matchesMessage Example.helpers Example.config (Example.ctx.put "message" (some (.str ""))) =
        .ok false := by
  refine ⟨?_, ?_⟩
  · rfl
  · rfl

end WaAutomation.Bodyless
