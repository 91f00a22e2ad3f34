/-
**Rendering is one exact pass.**

A placeholder is two opening braces, white space, a key, white space and two closing braces. Its
key and its white space hold no braces, so two placeholders share no letter, and every template has
exactly one decomposition into placeholders and literals without a placeholder.

* `placeholder_solid` says that placeholders do not overlap;
* `matches_iff` says that the matches of the expression are the placeholders, and
  `results_decompose` that the scan decomposes the template;
* `replacement_iff` reads the text of a key off the steps from value to value, `Follows`;
* `renderTemplate_iff` puts them together, `renderJson_iff` is about the texts of actions, and
  `render_exact` is both.
-/

import WaAutomation.Model.Automations
import WaAutomation.Model.Template

set_option linter.unusedSectionVars false

namespace WaAutomation.Templates

open Library Template

/-! ### Placeholders -/

/-- A placeholder: a key with white space around it. -/
structure Placeholder where
  before : List Char
  key : List Char
  after : List Char
  before_blank : ∀ mark ∈ before, Csv.isSpace mark = true
  key_marks : ∀ mark ∈ key, isKeyMark mark = true
  key_inhabited : key ≠ []
  after_blank : ∀ mark ∈ after, Csv.isSpace mark = true

namespace Placeholder

variable (placeholder other : Placeholder)

/-- What is between the braces. -/
def body : List Char := placeholder.before ++ placeholder.key ++ placeholder.after

/-- The text of a placeholder. -/
def text : List Char := '{' :: '{' :: (placeholder.body ++ ['}', '}'])

/-- The placeholder as a match of the expression. -/
def found : Match :=
  [['{'], ['{'], placeholder.before, placeholder.key, placeholder.after, ['}'], ['}']]

theorem flatten_found : placeholder.found.flatten = placeholder.text := by
  simp [found, text, body]

theorem body_ne_nil : placeholder.body ≠ [] := by
  simp [body, placeholder.key_inhabited]

@[simp] theorem group_found : group placeholder.found = placeholder.key := rfl

end Placeholder

/-! ### The classes of marks are disjoint -/

/-- The codes of the marks of a key. -/
theorem keyMark_range {mark : Char} (key : isKeyMark mark = true) :
    (48 ≤ mark.toNat ∧ mark.toNat ≤ 57) ∨ (65 ≤ mark.toNat ∧ mark.toNat ≤ 90) ∨
      mark.toNat = 95 ∨ (97 ≤ mark.toNat ∧ mark.toNat ≤ 122) ∨ mark.toNat = 46 := by
  have classes : isKeyMark mark =
      ((((decide ('A'.val ≤ mark.val ∧ mark.val ≤ 'Z'.val) ||
        (decide ('a'.val ≤ mark.val) && decide (mark.val ≤ 'z'.val))) ||
        (decide ('0'.val ≤ mark.val) && decide (mark.val ≤ '9'.val))) ||
          mark == '_') || mark == '.') := rfl
  rw [classes] at key
  simp only [Bool.or_eq_true, beq_iff_eq, Bool.and_eq_true, decide_eq_true_eq] at key
  rcases key with (((⟨low, high⟩ | ⟨low, high⟩) | ⟨low, high⟩) | rfl) | rfl
  · exact .inr (.inl ⟨low, high⟩)
  · exact .inr (.inr (.inr (.inl ⟨low, high⟩)))
  · exact .inl ⟨low, high⟩
  · exact .inr (.inr (.inl rfl))
  · exact .inr (.inr (.inr (.inr rfl)))

theorem space_range {mark : Char} (blank : Csv.isSpace mark = true) :
    mark.toNat ≤ 32 ∨ 160 ≤ mark.toNat := by
  simp only [Csv.isSpace, Bool.or_eq_true, Bool.and_eq_true, beq_iff_eq, decide_eq_true_eq] at blank
  omega

theorem keyMark_not_space {mark : Char} (key : isKeyMark mark = true) :
    Csv.isSpace mark = false := by
  by_contra blank
  have low := space_range (Bool.eq_true_of_not_eq_false blank)
  have range := keyMark_range key
  omega

/-- Neither a key nor white space holds a brace. -/
theorem not_brace {mark brace : Char} (brace_eq : brace = '{' ∨ brace = '}')
    (inside : Csv.isSpace mark = true ∨ isKeyMark mark = true) : mark ≠ brace := by
  rintro rfl
  have code : mark.toNat = 123 ∨ mark.toNat = 125 := by
    rcases brace_eq with rfl | rfl
    · exact .inl rfl
    · exact .inr rfl
  rcases inside with blank | key
  · have low := space_range blank
    omega
  · have range := keyMark_range key
    omega

namespace Placeholder

variable {placeholder other : Placeholder}

theorem body_marks : ∀ mark ∈ placeholder.body,
    Csv.isSpace mark = true ∨ isKeyMark mark = true := by
  intro mark member
  simp only [body, List.mem_append] at member
  rcases member with (before | key) | after
  · exact .inl (placeholder.before_blank mark before)
  · exact .inr (placeholder.key_marks mark key)
  · exact .inl (placeholder.after_blank mark after)

/-- The white space in front of a key is what comes before the first mark of a key. -/
theorem takeWhile_body : placeholder.body.takeWhile Csv.isSpace = placeholder.before := by
  have first : (placeholder.key ++ placeholder.after).takeWhile Csv.isSpace = [] := by
    cases found : placeholder.key with
    | nil => exact absurd found placeholder.key_inhabited
    | cons mark rest =>
      have marks := placeholder.key_marks mark (found ▸ List.mem_cons_self)
      rw [List.cons_append, List.takeWhile_cons_of_neg]
      rw [keyMark_not_space marks]
      exact Bool.false_ne_true
  rw [body, List.append_assoc, List.takeWhile_append_of_pos placeholder.before_blank, first,
    List.append_nil]

/-- A key is what its class takes behind the white space. -/
theorem takeWhile_key :
    (placeholder.key ++ placeholder.after).takeWhile isKeyMark = placeholder.key := by
  have first : placeholder.after.takeWhile isKeyMark = [] := by
    cases found : placeholder.after with
    | nil => rfl
    | cons mark rest =>
      have blank := placeholder.after_blank mark (found ▸ List.mem_cons_self)
      rw [List.takeWhile_cons_of_neg]
      intro key
      rw [keyMark_not_space key] at blank
      cases blank
  rw [List.takeWhile_append_of_pos placeholder.key_marks, first, List.append_nil]

/-- A placeholder is known by what is between its braces. -/
theorem eq_of_body (same : placeholder.body = other.body) : placeholder = other := by
  have before : placeholder.before = other.before := by
    rw [← takeWhile_body, same, takeWhile_body]
  have tail : placeholder.key ++ placeholder.after = other.key ++ other.after := by
    simp only [body, List.append_assoc, before] at same
    exact List.append_cancel_left same
  have key : placeholder.key = other.key := by
    rw [← takeWhile_key, tail, takeWhile_key]
  rw [key] at tail
  have after := List.append_cancel_left tail
  cases placeholder
  cases other
  simp only [mk.injEq]
  exact ⟨before, key, after⟩

/-- The body ends at the first closing brace. -/
theorem takeWhile_text (rest : List Char) :
    (placeholder.body ++ (['}', '}'] ++ rest)).takeWhile (· != '}') = placeholder.body := by
  have marks : ∀ mark ∈ placeholder.body, (mark != '}') = true := fun mark member =>
    bne_iff_ne.mpr (not_brace (.inr rfl) (body_marks mark member))
  rw [List.takeWhile_append_of_pos marks, List.cons_append,
    List.takeWhile_cons_of_neg (by decide), List.append_nil]

/-- Behind the opening braces no other opening brace follows. -/
theorem not_open : ∀ mark ∈ placeholder.body ++ ['}', '}'], mark ≠ '{' := by
  intro mark member
  rcases List.mem_append.mp member with inside | closing
  · exact not_brace (.inl rfl) (body_marks mark inside)
  · simp only [List.mem_cons, List.not_mem_nil, or_false, or_self] at closing
    rw [closing]
    decide

/-- A placeholder that begins within another one begins with it. -/
theorem apart {before shared rest rest' : List Char}
    (whole : placeholder.text = before ++ shared) (shares : shared ≠ [])
    (same : shared ++ rest = other.text ++ rest') : before = [] ∧ shared = other.text := by
  obtain ⟨mark, later, rfl⟩ := List.exists_cons_of_ne_nil shares
  rw [text, List.cons_append, List.cons_append, List.cons_append, List.cons.injEq] at same
  obtain ⟨rfl, behind⟩ := same
  match before with
  | [] =>
    rw [List.nil_append, text, List.cons.injEq] at whole
    obtain ⟨_, rfl⟩ := whole
    refine ⟨rfl, ?_⟩
    rw [List.cons_append, List.cons.injEq, List.append_assoc, List.append_assoc] at behind
    -- both bodies end at the first closing brace of one text
    have bodies := congrArg (List.takeWhile (· != '}')) behind.2
    rw [takeWhile_text, takeWhile_text] at bodies
    rw [text, bodies]
  | [_] =>
    -- the second opening brace would be the first mark of the body
    rw [text, List.singleton_append, List.cons.injEq, List.cons.injEq] at whole
    obtain ⟨_, _, rfl⟩ := whole
    obtain ⟨first, others, inside⟩ := List.exists_cons_of_ne_nil placeholder.body_ne_nil
    rw [inside, List.cons_append, List.cons_append, List.cons.injEq] at behind
    exact absurd behind.1 (not_open first (by rw [inside]; exact List.mem_cons_self))
  | _ :: _ :: between =>
    rw [text, List.cons_append, List.cons_append, List.cons.injEq, List.cons.injEq] at whole
    have inside : '{' ∈ placeholder.body ++ ['}', '}'] := by
      rw [whole.2.2]
      exact List.mem_append_right between List.mem_cons_self
    exact absurd rfl (not_open '{' inside)

end Placeholder

/-- **Placeholders do not overlap.** -/
theorem placeholder_solid : Solid Placeholder.text fun _ => True where
  injective := by
    intro placeholder other _ _ same
    simp only [Placeholder.text, List.cons.injEq, true_and] at same
    exact Placeholder.eq_of_body (List.append_cancel_right same)
  apart := fun _ _ => Placeholder.apart

/-! ### The matches are the placeholders -/

theorem fits_one {test : Char → Bool} {piece : List Char} :
    Pattern.Fits (Pattern.one test) piece ↔ ∃ mark, piece = [mark] ∧ test mark = true := by
  constructor
  · rintro ⟨marks, least, most⟩
    obtain ⟨mark, rfl⟩ := List.length_eq_one_iff.mp (Nat.le_antisymm (most 1 rfl) least)
    exact ⟨mark, rfl, marks mark (List.mem_singleton_self mark)⟩
  · rintro ⟨mark, rfl, holds⟩
    exact ⟨List.forall_mem_singleton.mpr holds, Nat.le_refl _, fun _ member =>
      Nat.le_of_eq (Option.some.inj member)⟩

theorem fits_many {test : Char → Bool} {piece : List Char} :
    Pattern.Fits (Pattern.many test) piece ↔ ∀ mark ∈ piece, test mark = true :=
  ⟨fun fits => fits.marks, fun marks => ⟨marks, Nat.zero_le _, fun _ member => by cases member⟩⟩

theorem fits_oneOrMore {test : Char → Bool} {piece : List Char} :
    Pattern.Fits (Pattern.oneOrMore test) piece ↔
      (∀ mark ∈ piece, test mark = true) ∧ piece ≠ [] :=
  ⟨fun fits => ⟨fits.marks, List.length_pos_iff.mp fits.least⟩, fun ⟨marks, inhabited⟩ =>
    ⟨marks, List.length_pos_iff.mpr inhabited, fun _ member => by cases member⟩⟩

/-- **The matches of the expression are the placeholders.** -/
theorem matches_iff {found : Match} :
    Pattern.Matches pattern found ↔ ∃ placeholder : Placeholder, placeholder.found = found := by
  constructor
  · intro fits
    unfold pattern at fits
    simp only [List.forall₂_cons_left_iff, List.forall₂_nil_left_iff, fits_one, fits_many,
      fits_oneOrMore, beq_iff_eq] at fits
    obtain ⟨_, _, ⟨_, rfl, rfl⟩, ⟨_, _, ⟨_, rfl, rfl⟩, ⟨before, _, blank, ⟨key, _,
      ⟨marks, inhabited⟩, ⟨after, _, blank', ⟨_, _, ⟨_, rfl, rfl⟩, ⟨_, _, ⟨_, rfl, rfl⟩, rfl, rfl⟩,
        rfl⟩, rfl⟩, rfl⟩, rfl⟩, rfl⟩, rfl⟩ := fits
    exact ⟨⟨before, key, after, blank, marks, inhabited, blank'⟩, rfl⟩
  · rintro ⟨placeholder, rfl⟩
    unfold pattern Placeholder.found
    simp only [List.forall₂_cons, List.forall₂_nil_left_iff, fits_one, fits_many, fits_oneOrMore]
    exact ⟨⟨_, rfl, rfl⟩, ⟨_, rfl, rfl⟩, placeholder.before_blank,
      ⟨placeholder.key_marks, placeholder.key_inhabited⟩, placeholder.after_blank,
      ⟨_, rfl, rfl⟩, ⟨_, rfl, rfl⟩, trivial⟩

/-- A decomposition of a template: its placeholders, and between them literals in which there is
no placeholder. -/
abbrev Decomposes (template : String) (cut : Cut Char Placeholder) : Prop :=
  Cuts Placeholder.text (fun _ => True) template.toList cut

/-- **The scan decomposes the template.** -/
theorem results_decompose (template : String) :
    ∃ cut, Decomposes template cut ∧ cut.map Placeholder.found = results template := by
  have inhabited : ∀ found, Pattern.Matches pattern found → List.flatten found ≠ [] := by
    intro found fits
    obtain ⟨placeholder, rfl⟩ := matches_iff.mp fits
    rw [Placeholder.flatten_found]
    exact List.cons_ne_nil _ _
  refine cuts_lift Placeholder.flatten_found (fun _ => matches_iff.mpr ⟨_, rfl⟩) (fun fits => ?_)
    (scan_cuts (Pattern.exact_matchAt pattern) inhabited template.toList)
  obtain ⟨placeholder, same⟩ := matches_iff.mp fits
  exact ⟨placeholder, trivial, same⟩

/-! ### The value of a key -/

section Values

variable {V : Type} (js : Values V)

/-- The value a path leads to: a property at each step, and no step from undefined or null. -/
inductive Follows : V → List String → V → Prop
  | here (value : V) : Follows value [] value
  | blank {value : V} {part : String} {parts : List String} (nullish : js.nullish value = true) :
      Follows value (part :: parts) value
  | step {value next found : V} {part : String} {parts : List String}
      (present : js.nullish value = false) (property : js.property value part = .ok next)
      (later : Follows next parts found) : Follows value (part :: parts) found

/-- The text of a key in a context: of the value its dotted path leads to, and empty for undefined
and null. -/
def TextOf (context : V) (key text : List Char) : Prop :=
  ∃ found, Follows js context ((key.splitOn '.').map String.ofList) found ∧
    if js.nullish found then text = [] else js.asString found = .ok (String.ofList text)

variable {js}

theorem foldlM_nullish {value : V} (nullish : js.nullish value = true) (parts : List String) :
    parts.foldlM (access js) value = .ok value := by
  induction parts with
  | nil => rfl
  | cons part parts ih =>
    rw [List.foldlM_cons, access, if_pos nullish]
    exact ih

theorem foldlM_follows {parts : List String} : ∀ {value found : V},
    parts.foldlM (access js) value = .ok found ↔ Follows js value parts found := by
  induction parts with
  | nil =>
    intro value found
    constructor
    · rintro ⟨rfl⟩
      exact .here value
    · rintro ⟨⟩
      rfl
  | cons part parts ih =>
    intro value found
    by_cases nullish : js.nullish value = true
    · rw [foldlM_nullish nullish]
      constructor
      · rintro ⟨rfl⟩
        exact .blank nullish
      · rintro (_ | _ | ⟨present, _, _⟩)
        · rfl
        · rw [nullish] at present
          cases present
    · rw [List.foldlM_cons, access, if_neg nullish]
      cases property : js.property value part with
      | error error =>
        refine ⟨fun given => (by cases given), ?_⟩
        rintro (_ | absent | ⟨_, other, _⟩)
        · exact absurd absent nullish
        · rw [property] at other
          cases other
      | ok next =>
        refine ih.trans ⟨.step (Bool.eq_false_of_not_eq_true nullish) property, ?_⟩
        rintro (_ | absent | ⟨_, other, later⟩)
        · exact absurd absent nullish
        · rw [property] at other
          obtain rfl := Except.ok.inj other
          exact later

/-- **The callback returns the text of its key.** -/
theorem replacement_iff {context : V} {key text : List Char} :
    replacement js context key = .ok text ↔ TextOf js context key text := by
  unfold replacement TextOf
  cases followed : resolve js key context with
  | error error =>
    refine ⟨fun given => (by cases given), ?_⟩
    rintro ⟨found, follows, _⟩
    rw [resolve, foldlM_follows.mpr follows] at followed
    cases followed
  | ok value =>
    have follows : ∀ found, Follows js context ((key.splitOn '.').map String.ofList) found ↔
        value = found := by
      intro found
      rw [← foldlM_follows, ← resolve, followed, Except.ok.injEq]
    simp only [follows, exists_eq_left']
    show (if js.nullish value then Except.ok [] else _) = _ ↔ _
    split
    · rw [Except.ok.injEq]
      exact eq_comm
    · cases js.asString value with
      | error error => exact ⟨fun given => (by cases given), fun given => (by cases given)⟩
      | ok found =>
        show Except.ok found.toList = _ ↔ _
        rw [Except.ok.injEq, Except.ok.injEq]
        constructor
        · rintro rfl
          exact String.ofList_toList.symm
        · rintro rfl
          exact String.toList_ofList

end Values

/-! ### Whole templates -/

theorem mapM_ok_iff {α β : Type} (step : α → Except Err β) {values : List α} :
    ∀ {results : List β}, values.mapM step = .ok results ↔
      List.Forall₂ (fun value result => step value = .ok result) values results := by
  induction values with
  | nil =>
    intro results
    rw [List.mapM_nil, List.forall₂_nil_left_iff]
    constructor
    · rintro ⟨rfl⟩
      rfl
    · rintro rfl
      rfl
  | cons value values ih =>
    intro results
    rw [List.mapM_cons, List.forall₂_cons_left_iff]
    cases first : step value with
    | error error =>
      refine ⟨fun given => (by cases given), ?_⟩
      rintro ⟨_, _, given, _⟩
      cases given
    | ok result =>
      cases later : values.mapM step with
      | error error =>
        refine ⟨fun given => (by cases given), ?_⟩
        rintro ⟨_, rest, _, given, _⟩
        rw [← ih, later] at given
        cases given
      | ok rest =>
        show Except.ok (result :: rest) = _ ↔ _
        constructor
        · rintro ⟨rfl⟩
          exact ⟨result, rest, rfl, ih.mp later, rfl⟩
        · rintro ⟨_, others, ⟨rfl⟩, given, rfl⟩
          rw [← ih, later, Except.ok.injEq] at given
          rw [given]

section Whole

variable {V : Type} {js : Values V}

/-- **What a template renders to**, read off its decomposition. -/
theorem renderTemplate_iff {template : String} {cut : Cut Char Placeholder}
    (decomposes : Decomposes template cut) {context : V} {rendered : String} :
    renderTemplate js template context = .ok rendered ↔
      ∃ texts, List.Forall₂ (TextOf js context) (cut.marks.map Placeholder.key) texts ∧
        rendered = String.ofList (cut.fill texts) := by
  obtain ⟨found, decomposes', same⟩ := results_decompose template
  obtain rfl := cut_unique placeholder_solid decomposes decomposes'
  have texts : ∀ texts, (results template).marks.mapM
      (fun mark => replacement js context (group mark)) = .ok texts ↔
        List.Forall₂ (TextOf js context) (cut.marks.map Placeholder.key) texts := by
    intro texts
    rw [mapM_ok_iff, ← same, Cut.marks_map, List.forall₂_map_left_iff, List.forall₂_map_left_iff]
    simp only [replacement_iff, Placeholder.group_found]
  unfold renderTemplate
  dsimp only
  constructor
  · intro renders
    cases replaces : (results template).marks.mapM
        (fun mark => replacement js context (group mark)) with
    | error error =>
      rw [replaces] at renders
      cases renders
    | ok replaced =>
      rw [replaces] at renders
      obtain rfl := Except.ok.inj renders
      refine ⟨replaced, (texts replaced).mp replaces, ?_⟩
      rw [← same, Cut.fill_map]
  · rintro ⟨replaced, follows, rfl⟩
    rw [(texts replaced).mpr follows, ← same]
    show Except.ok (String.ofList ((cut.map Placeholder.found).fill replaced)) = _
    rw [Cut.fill_map]

/-- The text an action sends is the template of its config, rendered. -/
theorem renderJson_iff {h : Helpers} {plain : Record → V} {template : String}
    {cut : Cut Char Placeholder} (decomposes : Decomposes template cut) {context : Record}
    {rendered : String} :
    renderJson (h.withTemplates js plain) (.str template) context = .ok rendered ↔
      ∃ texts, List.Forall₂ (TextOf js (plain context)) (cut.marks.map Placeholder.key) texts ∧
        rendered = String.ofList (cut.fill texts) :=
  renderTemplate_iff decomposes

end Whole

/-- **Rendering is one exact pass.** Every template has exactly one decomposition into literals and
placeholders, and it renders, for every context, to the literals as they are with the texts of the
keys between them; it renders to nothing else, whatever these texts hold. The texts of the actions
are rendered so. -/
theorem render_exact {V : Type} (js : Values V) (template : String) :
    ∃ cut, Decomposes template cut ∧ (∀ other, Decomposes template other → other = cut) ∧
      (∀ context rendered, renderTemplate js template context = .ok rendered ↔
        ∃ texts, List.Forall₂ (TextOf js context) (cut.marks.map Placeholder.key) texts ∧
          rendered = String.ofList (cut.fill texts)) ∧
      ∀ (h : Helpers) (plain : Record → V) context rendered,
        renderJson (h.withTemplates js plain) (.str template) context = .ok rendered ↔
          ∃ texts, List.Forall₂ (TextOf js (plain context)) (cut.marks.map Placeholder.key) texts ∧
            rendered = String.ofList (cut.fill texts) := by
  obtain ⟨cut, decomposes, _⟩ := results_decompose template
  refine ⟨cut, decomposes, fun other another => cut_unique placeholder_solid another decomposes,
    fun context rendered => renderTemplate_iff decomposes, fun h plain context rendered => ?_⟩
  exact renderJson_iff decomposes

end WaAutomation.Templates
