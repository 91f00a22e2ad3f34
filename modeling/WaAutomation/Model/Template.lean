/-
**Templates.**

`renderTemplate` replaces the matches of a global regular expression. The matches are collected from
left to right, then the callback is applied to each of them, and the texts it returns are put where
the matches were. A text is a list of characters: the classes of the expression are single UTF-16
units.

A context may hold any values of the language. `Values` is what the callback uses of them.
-/

import WaAutomation.Library.Pattern
import WaAutomation.Library.Scan
import WaAutomation.Model.Csv

set_option linter.unusedSectionVars false

namespace WaAutomation

open Library

/-- What is used of the values of the language: the comparison `value == null`, the property of a
value that is neither undefined nor null, and `String(value)`. -/
structure Values (V : Type) where
  nullish : V → Bool
  property : V → String → Except Err V
  asString : V → Except Err String

namespace Template

/-! ### The regular expression -/

/-- The class `[\w.]`. -/
def isKeyMark (mark : Char) : Bool := mark.isAlphanum || mark == '_' || mark == '.'

/-- The expression `\{\{\s*([\w.]+)\s*\}\}`. -/
def pattern : Pattern Char :=
  [Pattern.one (· == '{'), Pattern.one (· == '{'), Pattern.many Csv.isSpace,
    Pattern.oneOrMore isKeyMark, Pattern.many Csv.isSpace, Pattern.one (· == '}'),
    Pattern.one (· == '}')]

/-- A match: what each atom of the expression takes. -/
abbrev Match := List (List Char)

/-- The first group of a match, what its fourth atom takes. -/
def group (found : Match) : List Char := found.getD 3 []

/-- The text cut at the matches. -/
def results (template : String) : Cut Char Match :=
  scan (Pattern.matchAt pattern) List.flatten 0 template.toList

/-! ### The callback -/

variable {V : Type} (js : Values V)

/-- One step of the `reduce`. -/
def access (acc : V) (part : String) : Except Err V :=
  if js.nullish acc then .ok acc else js.property acc part

/-- The value at a dotted key. -/
def resolve (key : List Char) (context : V) : Except Err V :=
  ((key.splitOn '.').map String.ofList).foldlM (access js) context

/-- The text a key is replaced with. -/
def replacement (context : V) (key : List Char) : Except Err (List Char) := do
  let value ← resolve js key context
  if js.nullish value then return []
  else
    let text ← js.asString value
    return text.toList

end Template

def renderTemplate {V : Type} (js : Values V) (template : String) (context : V) :
    Except Err String := do
  let found := Template.results template
  let texts ← found.marks.mapM fun mark => Template.replacement js context (Template.group mark)
  return String.ofList (found.fill texts)

/-- The helpers with the rendering of templates, for contexts that are plain objects. -/
def Helpers.withTemplates {V : Type} (h : Helpers) (js : Values V) (plain : Record → V) : Helpers :=
  { h with renderTemplate :=
    fun template context => WaAutomation.renderTemplate js template (plain context) }

end WaAutomation
