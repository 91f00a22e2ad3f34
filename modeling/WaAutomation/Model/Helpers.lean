/-
**Pure helpers.**

What the services compute between two calls: the three cases of an optional field, phone numbers and
chat ids, pages of a query. `Helpers` collects the functions of libraries and of the language that
stay open (template rendering, decryption, hashing, dates, cron, regular expressions, conversions of
values): every model function takes them as a parameter, so what is proved holds for whatever they
compute, unless a theorem names what it assumes of one.
-/

import WaAutomation.Model.Store

set_option linter.unusedSectionVars false

namespace WaAutomation

/-! ### JavaScript values -/

/-- An optional field of a request body. `@IsOptional()` lets `null` pass. -/
inductive Field (α : Type) where
  | undefined
  | null
  | value (given : α)
  deriving DecidableEq, Repr

/-- The field as a nullable column, with what it becomes when it is undefined. -/
def Field.orElse {α : Type} (field : Field α) (stored : Option α) : Option α :=
  match field with
  | .undefined => stored
  | .null => none
  | .value given => some given

/-- The field where `undefined` and `null` are treated alike. -/
def Field.toOption {α : Type} : Field α → Option α
  | .value given => some given
  | _ => none

/-- The field a body that leaves it out reads as. -/
instance {α : Type} : Inhabited (Field α) := ⟨.undefined⟩

/-- The text of `value || null`: the empty string is falsy too. -/
def orNull (value : Option String) : Option String :=
  value.filter fun text => text != ""

theorem orNull_orNull (value : Option String) : orNull (orNull value) = orNull value := by
  unfold orNull
  rw [Option.filter_filter]
  simp only [Bool.and_self]

/-- The value under a key; `undefined` when there is none. -/
def Record.get (record : Record) (key : String) : Option Json :=
  (record.find? fun entry => entry.1 == key).map Prod.snd

/-- The record with a key set. -/
def Record.set (record : Record) (key : String) (value : Json) : Record :=
  record.filter (fun entry => entry.1 != key) ++ [(key, value)]

/-- The record with a key set to a value that may be undefined. -/
def Record.put (record : Record) (key : String) : Option Json → Record
  | some value => record.set key value
  | none => record.filter fun entry => entry.1 != key

section Record

variable {record : Record} {key other : String}

theorem Record.get_set (value : Json) : (record.set key value).get key = some value := by
  unfold get set
  rw [List.find?_append, List.find?_eq_none.mpr fun entry member => ?_, Option.none_or]
  · simp only [List.find?_cons, beq_self_eq_true, Option.map_some]
  · simpa using (List.mem_filter.mp member).2

/-- The other keys of a record from which a key is taken. -/
theorem Record.get_without (different : other ≠ key) :
    Record.get (record.filter fun entry => entry.1 != key) other = record.get other := by
  unfold get
  rw [List.find?_filter]
  congr 2
  funext entry
  by_cases same : entry.1 = other
  · simp [same, different]
  · simp [same]

theorem Record.get_set_other (different : other ≠ key) (value : Json) :
    (record.set key value).get other = record.get other := by
  refine Eq.trans ?_ (get_without different)
  unfold get set
  rw [List.find?_append, List.find?_cons_of_neg (by simpa using different.symm), List.find?_nil,
    Option.or_none]

theorem Record.get_put (value : Option Json) : (record.put key value).get key = value := by
  cases value with
  | some value => exact get_set value
  | none =>
    unfold get put
    rw [List.find?_eq_none.mpr fun entry member => ?_, Option.map_none]
    simpa using (List.mem_filter.mp member).2

theorem Record.get_put_other (different : other ≠ key) (value : Option Json) :
    (record.put key value).get other = record.get other := by
  cases value with
  | none => exact get_without different
  | some value => exact get_set_other different value

end Record

/-- A value that counts as true. -/
def Json.truthy : Json → Bool
  | .null => false
  | .bool value => value
  | .num value => value != 0
  | .str value => value != ""
  | .arr _ => true
  | .obj _ => true

/-- The first operand of `||` that counts as true. -/
def firstTruthy (first second : Option Json) : Option Json :=
  match first with
  | some value => if value.truthy then some value else second
  | none => second

/-! ### Phones -/

/-- The digits of a phone number, `replace(/[^\d]/g, '')`. -/
def digits (phone : String) : String := String.ofList (phone.toList.filter Char.isDigit)

theorem toList_digits (phone : String) : (digits phone).toList = phone.toList.filter Char.isDigit :=
  String.toList_ofList

/-- Nothing is left of a phone without a digit. -/
theorem digits_empty {phone : String} :
    digits phone = "" ↔ ∀ mark ∈ phone.toList, mark.isDigit = false := by
  unfold digits
  rw [String.ofList_eq_empty_iff, List.filter_eq_nil_iff]
  simp

/-- The chat id of a phone number. -/
def toChatId (phone : String) : String :=
  if phone.toList.contains '@' then phone else digits phone ++ "@c.us"

/-! ### Pages -/

/-- A page of a list, as `skip(…).take(…)` cuts it. -/
def page {α : Type} (rows : List α) (number limit : Nat) : List α :=
  (rows.drop ((number - 1) * limit)).take limit

structure PaginationMeta where
  page : Nat
  limit : Nat
  total : Nat
  totalPages : Nat
  deriving DecidableEq, Repr

/-- The field `meta` is `metadata` here: the source's word is reserved. -/
structure PaginatedResult (α : Type) where
  data : List α
  metadata : PaginationMeta

def buildPagination {α : Type} (data : List α) (total page limit : Nat) : PaginatedResult α :=
  ⟨data, ⟨page, limit, total, (total + limit - 1) / limit⟩⟩

/-! ### The helpers left open -/

/-- The functions that stay open. -/
structure Helpers where
  renderTemplate : String → Record → Except Err String
  decrypt : String → Except Err String
  sha256 : String → String
  parseDate : String → Time
  isoString : Time → String
  startOfDay : Time → Time
  endOfDay : Time → Time
  day : Time → String
  ilike : String → Option String → Bool
  /-- The conversion `String(…)`; an object that has no primitive value throws. -/
  asString : Json → Except Err String
  /-- The text of a value that a driver writes, or that can be no object. -/
  written : Json → String
  millis : Json → Int
  property : Json → String → Option Json
  lower : String → String
  regexTest : String → String → Option Bool
  stringify : Record → String
  hmac : String → String → String
  /-- The comparison `Number(…) > Number(…)`, which throws like `String(…)`. -/
  greater : Option Json → Option Json → Except Err Bool
  matchesMessage : Record → Record → Except Err Bool
  cronNext : Json → Json → Int → Except Err Int

/-- A value that is written to a column of texts, or compared with one; undefined and null are
treated alike. -/
def textOf (h : Helpers) : Option Json → Option String
  | none => none
  | some .null => none
  | some (.str text) => some text
  | some value => some (h.written value)

/-! ### Helpers and inputs to run the model with -/

namespace Example

def helpers : Helpers where
  renderTemplate template _ := .ok template
  decrypt payload := .ok payload
  sha256 value := value
  parseDate _ := 0
  isoString _ := ""
  startOfDay time := time
  endOfDay time := time
  day _ := ""
  ilike pattern value := value == some pattern
  asString _ := .ok ""
  written _ := ""
  millis _ := 0
  property _ _ := none
  lower text := text
  regexTest _ _ := none
  stringify _ := ""
  hmac _ body := body
  greater _ _ := .ok false
  matchesMessage _ _ := .ok true
  cronNext _ _ currentDate := .ok (currentDate + 1)

/-- An input with which nothing fails and OpenWA accepts. -/
def fine : Input :=
  ⟨none, 0, fun _ => "", "", .ok ⟨some true, none, some "id", none, none⟩, .ok 200, 0⟩

/-- An input with which OpenWA rejects. -/
def rejected : Input := { fine with openwa := .error (some 400, "rejected") }

/-- An input with which the database or the queue fails. -/
def faulty : Input := { fine with fault := some "connection lost" }

end Example

end WaAutomation
