/-
**The condition engine.**

`ConditionEngine.evaluate` compares a value of the context with the value of a condition. The
conversions and comparisons of JavaScript it rests on (`String(…)`, `Number(…)`, property access,
lower case, regular expressions) are helpers: pure functions of their arguments, of which the
conversions may throw.
-/

import Mathlib.Data.List.Infix
import WaAutomation.Model.Helpers

set_option linter.unusedSectionVars false

namespace WaAutomation

namespace ConditionEngine

/-- The steps of a path: an access to `undefined` or `null` stays there. -/
def follow (h : Helpers) (value : Option Json) : List String → Option Json
  | [] => value
  | part :: parts =>
      match value with
      | none => none
      | some .null => some .null
      | some value => follow h (h.property value part) parts

/-- The value at a dotted path; only a string has `split`. -/
def resolve (h : Helpers) (field : Option Json) (context : Record) : Except Err (Option Json) :=
  match field with
  | some (.str path) => .ok (follow h (some (.obj context)) (path.splitOn "."))
  | _ => .error (.other "field.split is not a function")

/-- The text `value == null ? '' : String(value)`. -/
def text (h : Helpers) : Option Json → Except Err String
  | none => .ok ""
  | some .null => .ok ""
  | some value => h.asString value

/-- An inclusion test on the lower case of two texts. -/
def contains (h : Helpers) (actual expected : String) : Bool :=
  decide ((h.lower expected).toList <:+: (h.lower actual).toList)

/-- The operator of a condition applied to its two sides and to their texts `a` and `e`. -/
def compare (h : Helpers) (operator : String) (actual expected : Option Json) (a e : String) :
    Except Err Bool :=
  match operator with
  | "equals" => .ok (a == e)
  | "not_equals" => .ok (a != e)
  | "contains" => .ok (contains h a e)
  | "not_contains" => .ok (!contains h a e)
  | "starts_with" => .ok ((h.lower e).toList.isPrefixOf (h.lower a).toList)
  | "ends_with" => .ok ((h.lower e).toList.isSuffixOf (h.lower a).toList)
  | "regex" => .ok ((h.regexTest e a).getD false)
  | "gt" => h.greater actual expected
  | "lt" => h.greater expected actual
  | _ => .ok false

/-- Both sides are converted before the operator is looked at. -/
def evaluate (h : Helpers) (config context : Record) : Except Err Bool := do
  let actual ← resolve h (config.get "field") context
  let expected := config.get "value"
  let a ← text h actual
  let e ← text h expected
  match config.get "operator" with
  | some (.str operator) => compare h operator actual expected a e
  | _ => return false

end ConditionEngine

end WaAutomation
