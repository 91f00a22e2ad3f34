/-
**The trigger engine.**

`TriggerEngine.matchesMessage` decides whether an incoming message satisfies the config of a message
trigger. The config is a `jsonb` column that is checked to be an object and no more, and the context
holds what the callback was sent, so both are plain objects with any values; a method that a value
does not have throws.
-/

import Mathlib.Data.List.Infix
import WaAutomation.Model.Helpers

set_option linter.unusedSectionVars false

namespace WaAutomation

/-- The comparison `===`. Two objects of different records are different. -/
def strictEq : Option Json → Option Json → Bool
  | none, none => true
  | some .null, some .null => true
  | some (.bool first), some (.bool second) => first == second
  | some (.num first), some (.num second) => first == second
  | some (.str first), some (.str second) => first == second
  | _, _ => false

/-- The text of a value that is no object, undefined and null included. -/
def stringOf (h : Helpers) : Option Json → String
  | none => "undefined"
  | some .null => "null"
  | some (.str text) => text
  | some value => h.written value

namespace TriggerEngine

/-- The sender is not the one the config asks for. -/
def wrongSender (config ctx : Record) : Bool :=
  match (config.get "from_phone").filter Json.truthy with
  | none => false
  | some phone => !strictEq (some phone) (ctx.get "from")

/-- The message is in a group when it should not be, or not in one when it should. -/
def wrongGroup (config ctx : Record) : Bool :=
  match config.get "is_group" with
  | none => false
  | some wanted =>
      !strictEq (some (.bool (((ctx.get "isGroup").map Json.truthy).getD false))) (some wanted)

/-- The text `(ctx.message || '').toLowerCase()`. -/
def lowered (h : Helpers) (message : Option Json) : Except Err String :=
  match firstTruthy message (some (.str "")) with
  | some (.str text) => .ok (h.lower text)
  | _ => .error (.other "(ctx.message || \"\").toLowerCase is not a function")

/-- One keyword: `text` is the message in lower case, but an expression is tested on the message as
it came. An expression that is not valid matches nothing. -/
def matchesKeyword (h : Helpers) (matchType : Option Json) (message : Option Json)
    (text raw : String) : Bool :=
  let kw := h.lower raw
  match matchType with
  | some (.str "exact") => text == kw
  | some (.str "starts_with") => kw.toList.isPrefixOf text.toList
  | some (.str "regex") => (h.regexTest raw (stringOf h message)).getD false
  | _ => decide (kw.toList <:+: text.toList)

/-- The first keyword that matches ends the search, one that is not a text throws. -/
def someKeyword (holds : String → Bool) : List Json → Except Err Bool
  | [] => .ok false
  | .str raw :: rest => if holds raw then .ok true else someKeyword holds rest
  | .null :: _ => .error (.other "Cannot read properties of null (reading 'toLowerCase')")
  | _ :: _ => .error (.other "raw.toLowerCase is not a function")

/-- The comparison `keywords.length === 0` of an object that is no array. -/
def lengthZero (fields : Record) : Bool :=
  strictEq (fields.get "length") (some (.num 0))

/-- What is no array has no `some`. -/
def noSome (h : Helpers) (message : Option Json) : Except Err Bool := do
  let _ ← lowered h message
  .error (.other "keywords.some is not a function")

/-- What follows the checks of the sender and of the group. -/
def searchKeywords (h : Helpers) (matchType message : Option Json) :
    (keywords : Option Json) → Except Err Bool
  | some (.arr []) => .ok true
  | some (.arr keywords) => do
      let text ← lowered h message
      someKeyword (matchesKeyword h matchType message text) keywords
  | some (.obj fields) => if lengthZero fields then .ok true else noSome h message
  | _ => noSome h message

def matchesMessage (h : Helpers) (config ctx : Record) : Except Err Bool :=
  if wrongSender config ctx then .ok false
  else if wrongGroup config ctx then .ok false
  else searchKeywords h (firstTruthy (config.get "match_type") (some (.str "contains")))
    (ctx.get "message") (firstTruthy (config.get "keywords") (some (.arr [])))

end TriggerEngine

end WaAutomation
