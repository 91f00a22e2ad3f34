/-
**Missing keys.**

A key is missing from a context of plain data when it cannot be followed from value to value through
own properties. The code follows it through any properties, so where the own ones end it goes on
with what the prototypes of the value's type have under the next name.

* `leave` is the place where a path leaves the own properties;
* `foldlM_leave` says that the code goes on from there in the prototypes, and nowhere from null;
* `missing_empty_iff` says when missing keys render as empty, and `missing_not_empty` is a name that
  every object inherits.
-/

import WaAutomation.Model.Prototypes
import WaAutomation.Templates.Exact

set_option linter.unusedSectionVars false

namespace WaAutomation.Templates

open Library Template

/-! ### Own properties -/

/-- The value a path leads to through own properties. -/
inductive Present : Value → List String → Value → Prop
  | here (value : Value) : Present value [] value
  | step {value next found : Value} {part : String} {parts : List String}
      (own : value.own part = some next) (later : Present next parts found) :
      Present value (part :: parts) found

/-- The names of a key. -/
def names (key : List Char) : List String := (key.splitOn '.').map String.ofList

/-- The key cannot be followed in the context through own properties. -/
def Missing (context : Json) (key : List Char) : Prop :=
  ¬∃ found, Present (.data context) (names key) found

/-- The keys of the placeholders of a template. -/
def keys (template : String) : List (List Char) := (results template).marks.map group

/-- Where a path leaves the own properties: the value, the name it has no property under, and the
names after it. -/
def leave (value : Value) : List String → Option (Value × String × List String)
  | [] => none
  | part :: parts =>
      match value.own part with
      | some next => leave next parts
      | none => some (value, part, parts)

theorem leave_eq_none {parts : List String} : ∀ {value : Value},
    leave value parts = none ↔ ∃ found, Present value parts found := by
  induction parts with
  | nil => exact fun {value} => ⟨fun _ => ⟨value, .here value⟩, fun _ => rfl⟩
  | cons part parts ih =>
    intro value
    cases own : value.own part with
    | none =>
      refine ⟨fun stays => by simp only [leave, own, reduceCtorEq] at stays, ?_⟩
      rintro ⟨found, _ | ⟨other, _⟩⟩
      rw [own] at other
      cases other
    | some next =>
      simp only [leave, own, ih]
      refine ⟨fun ⟨found, later⟩ => ⟨found, .step own later⟩, ?_⟩
      rintro ⟨found, _ | ⟨other, later⟩⟩
      obtain rfl := Option.some.inj (own.symm.trans other)
      exact ⟨found, later⟩

theorem missing_iff {context : Json} {key : List Char} :
    Missing context key ↔ (leave (.data context) (names key)).isSome := by
  rw [Missing, ← leave_eq_none, Option.isSome_iff_ne_none]

/-! ### Where the code goes on -/

section Realms

variable (realm : Realm)

/-- The names lead from what the prototypes of a type have under a name to undefined, to null, or to
a value whose text is empty. In particular they do when the prototypes have nothing under it. -/
def Silent (kind : Kind) (part : String) (rest : List String) : Prop :=
  ∃ next found, realm.inherited kind.chain (.intrinsic (.prototype kind)) part = .ok next ∧
    Follows realm.values next rest found ∧
      (realm.values.nullish found = true ∨ realm.text found = .ok "")

variable {realm}

/-- Plain data, or a unit of a string. -/
def Plain : Value → Prop
  | .data _ => True
  | .unit _ => True
  | _ => False

theorem map_plain {α : Type} {form : α → Value} (plain : ∀ item, Plain (form item))
    {item : Option α} {next : Value} (own : item.map form = some next) : Plain next := by
  obtain ⟨item, _, rfl⟩ := Option.map_eq_some_iff.mp own
  exact plain item

/-- The own properties of what has a length and elements. -/
theorem indexed_plain {α : Type} {form : α → Value} (plain : ∀ item, Plain (form item))
    {items : List α} {length : Json} {part : String} {next : Value}
    (own : (if part = "length" then some (.data length) else (elementAt items part).map form) =
      some next) : Plain next := by
  by_cases asked : part = "length"
  · rw [if_pos asked] at own
    obtain rfl := Option.some.inj own
    trivial
  · rw [if_neg asked] at own
    exact map_plain plain own

/-- The own properties of plain data are plain. -/
theorem own_plain {value next : Value} {part : String} (own : value.own part = some next) :
    Plain next := by
  have data : ∀ json, Plain (.data json) := fun _ => trivial
  have unit : ∀ code, Plain (.unit code) := fun _ => trivial
  unfold Value.own at own
  split at own
  · exact map_plain data own
  · exact indexed_plain data own
  · exact indexed_plain unit own
  · exact indexed_plain unit own
  · cases own

/-- A plain value that is null or undefined is null. -/
theorem plain_nullish {value : Value} (plain : Plain value) :
    realm.values.nullish value = true ↔ value = .data .null := by
  match value, plain with
  | .data json, _ => cases json <;> simp [Realm.values]
  | .unit code, _ => simp [Realm.values]

theorem own_not_nullish {value next : Value} {part : String} (plain : Plain value)
    (own : value.own part = some next) : ¬realm.values.nullish value = true := by
  rw [plain_nullish plain]
  rintro rfl
  cases own

/-- A plain value looks a name up that is not its own in the prototypes of its type. -/
theorem property_plain {value : Value} (plain : Plain value) (part : String) :
    realm.values.property value part = match value.own part with
      | some found => .ok found
      | none => realm.inherited value.kind.chain (.intrinsic (.prototype value.kind)) part := by
  match value, plain with
  | .data json, _ => rfl
  | .unit code, _ => rfl

theorem leave_plain {parts : List String} : ∀ {value stop : Value} {part : String}
    {rest : List String}, Plain value → leave value parts = some (stop, part, rest) →
      Plain stop := by
  induction parts with
  | nil => exact fun _ leaves => by cases leaves
  | cons first parts ih =>
    intro value stop part rest plain leaves
    cases own : value.own first with
    | some next =>
      simp only [leave, own] at leaves
      exact ih (own_plain own) leaves
    | none =>
      simp only [leave, own, Option.some.injEq, Prod.mk.injEq] at leaves
      exact leaves.1 ▸ plain

/-- **Where a path leaves the own properties**, the code goes on in the prototypes; at null it goes
no further. -/
theorem foldlM_leave {parts : List String} : ∀ {value stop : Value} {part : String}
    {rest : List String}, Plain value → leave value parts = some (stop, part, rest) →
    parts.foldlM (access realm.values) value =
      if realm.values.nullish stop then .ok stop
      else realm.inherited stop.kind.chain (.intrinsic (.prototype stop.kind)) part >>=
        rest.foldlM (access realm.values) := by
  induction parts with
  | nil => exact fun _ leaves => by cases leaves
  | cons first parts ih =>
    intro value stop part rest plain leaves
    cases own : value.own first with
    | some next =>
      simp only [leave, own] at leaves
      rw [List.foldlM_cons, access, if_neg (own_not_nullish plain own), property_plain plain, own]
      exact ih (own_plain own) leaves
    | none =>
      simp only [leave, own, Option.some.injEq, Prod.mk.injEq] at leaves
      obtain ⟨rfl, rfl, rfl⟩ := leaves
      by_cases nullish : realm.values.nullish value = true
      · rw [if_pos nullish, foldlM_nullish nullish]
      · rw [if_neg nullish, List.foldlM_cons, access, if_neg nullish, property_plain plain, own]

/-- The callback returns the empty text for undefined, null, and a value whose text is empty. -/
theorem replacement_empty_iff {V : Type} {js : Values V} {context : V} {key : List Char} :
    replacement js context key = .ok [] ↔ ∃ found,
      (names key).foldlM (access js) context = .ok found ∧
        (js.nullish found = true ∨ js.asString found = .ok "") := by
  rw [replacement_iff, TextOf]
  refine exists_congr fun found => and_congr foldlM_follows.symm ?_
  by_cases nullish : js.nullish found = true
  · simp [nullish]
  · simp [nullish]

/-- What the prototypes have under a name, and the code's steps from there on. -/
theorem silent_iff {kind : Kind} {part : String} {rest : List String} :
    Silent realm kind part rest ↔ ∃ found,
      (realm.inherited kind.chain (.intrinsic (.prototype kind)) part >>=
        rest.foldlM (access realm.values)) = .ok found ∧
          (realm.values.nullish found = true ∨ realm.text found = .ok "") := by
  unfold Silent
  cases reads : realm.inherited kind.chain (.intrinsic (.prototype kind)) part with
  | error error =>
    constructor
    · rintro ⟨_, _, given, _⟩
      cases given
    · rintro ⟨_, given, _⟩
      cases given
  | ok next =>
    simp only [Except.ok.injEq, exists_and_left, exists_eq_left', ← foldlM_follows]
    rfl

/-- **A missing key renders as empty** exactly when the names from the missing one on lead nowhere,
or when it is missing from null. -/
theorem missing_key_iff {context : Json} {key : List Char} {stop : Value} {part : String}
    {rest : List String}
    (leaves : leave (.data context) (names key) = some (stop, part, rest)) :
    replacement realm.values (.data context) key = .ok [] ↔
      (stop ≠ .data .null → Silent realm stop.kind part rest) := by
  have data : Plain (.data context) := trivial
  have plain : Plain stop := leave_plain data leaves
  rw [replacement_empty_iff, foldlM_leave data leaves]
  by_cases nullish : realm.values.nullish stop = true
  · have null := (plain_nullish plain).mp nullish
    simp only [nullish, if_true, Except.ok.injEq, exists_eq_left', true_or, true_iff]
    exact fun other => absurd null other
  · have present : stop ≠ .data .null := fun null => nullish ((plain_nullish plain).mpr null)
    rw [if_neg nullish]
    exact silent_iff.symm.trans ⟨fun silent _ => silent, fun silent => silent present⟩

end Realms

/-- **When missing keys render as empty**, for every template and every context of plain data: when
each of them is missing from null, or at a value whose prototypes have nothing under the next name
that leads to a text. -/
theorem missing_empty_iff (realm : Realm) (template : String) (context : Json) :
    (∀ key ∈ keys template, Missing context key →
        replacement realm.values (.data context) key = .ok []) ↔
      ∀ key ∈ keys template, ∀ stop part rest,
        leave (.data context) (names key) = some (stop, part, rest) →
          stop ≠ .data .null → Silent realm stop.kind part rest := by
  refine forall_congr' fun key => forall_congr' fun _ => ?_
  rw [missing_iff]
  cases leaves : leave (.data context) (names key) with
  | none => simp
  | some left =>
    obtain ⟨stop, part, rest⟩ := left
    simp only [Option.isSome_some, true_imp_iff, Option.some.injEq, Prod.mk.injEq,
      missing_key_iff leaves]
    constructor
    · rintro silent _ _ _ ⟨rfl, rfl, rfl⟩
      exact silent
    · exact fun silent => silent stop part rest ⟨rfl, rfl, rfl⟩

namespace Example

/-- The standard library, with the functions that stay open answered anyhow. -/
def realm : Realm := .standard (fun _ => 0) (fun _ => .ok "") fun _ => ""

/-- The name of a function every object inherits. -/
def template : String := "Hi \x7b\x7bconstructor\x7d\x7d"

end Example

/-- A recipient without a variable `constructor` is greeted with the text of a function. -/
theorem missing_not_empty :
    "constructor".toList ∈ keys Example.template ∧ Missing (.obj []) "constructor".toList ∧
      renderTemplate Example.realm.values Example.template (.data (.obj [])) =
        .ok "Hi function Object() \x7b [native code] \x7d" := by
  refine ⟨by decide, ?_, rfl⟩
  rintro ⟨found, _ | ⟨own, _⟩⟩
  cases own

end WaAutomation.Templates
