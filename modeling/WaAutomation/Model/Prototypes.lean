/-
**Property access on plain data.**

A property of a value is its own, or it is inherited from the prototype of its type and from
`Object.prototype` behind it. What is inherited are the functions of the language, and from these
one comes to their prototype, to constructors and to their static functions; `Value` has all that
can be reached from plain data by names.

`Realm` is what is left open: the names under which the objects of the language hold functions, the
lengths of these, and the texts of numbers, of arrays and objects, and of a surrogate on its own.
`Realm.standard` has the names of the standard library.
-/

import WaAutomation.Model.Template

set_option linter.unusedSectionVars false

namespace WaAutomation

/-! ### Values -/

/-- The types of values that have a prototype. -/
inductive Kind where
  | object | array | string | number | boolean | function
  deriving DecidableEq, Repr

/-- The objects of the language. -/
inductive Intrinsic where
  | prototype (kind : Kind)
  | constructor (kind : Kind)
  | function (name : String)
  deriving DecidableEq, Repr

/-- A value that is reached from plain data: plain data, one UTF-16 unit of a string, an object of
the language, or a number it holds, as its text. -/
inductive Value where
  | undefined
  | data (json : Json)
  | unit (code : UInt16)
  | intrinsic (object : Intrinsic)
  | constant (text : String)

structure Realm where
  functions : Kind → String → Option String
  statics : Kind → String → Option String
  constants : String → Option String
  length : String → Nat
  asString : Json → Except Err String
  surrogate : UInt16 → String

/-! ### Own properties -/

/-- The UTF-16 units of a text. -/
def utf16 (text : String) : List UInt16 :=
  text.toList.flatMap fun mark =>
    let code := mark.toNat
    if code < 0x10000 then [code.toUInt16]
    else
      let above := code - 0x10000
      [(0xD800 + above / 0x400).toUInt16, (0xDC00 + above % 0x400).toUInt16]

/-- The element whose index a name is. -/
def elementAt {α : Type} (items : List α) (part : String) : Option α :=
  ((List.range items.length).find? fun index => toString index == part).bind (items[·]?)

/-- A property of a value that is its own, for plain data. -/
def Value.own : Value → String → Option Value
  | .data (.obj fields), part => (Record.get fields part).map .data
  | .data (.arr items), part =>
      if part = "length" then some (.data (.num items.length))
      else (elementAt items part).map .data
  | .data (.str text), part =>
      if part = "length" then some (.data (.num (utf16 text).length))
      else (elementAt (utf16 text) part).map .unit
  | .unit code, part =>
      if part = "length" then some (.data (.num 1)) else (elementAt [code] part).map .unit
  | _, _ => none

/-! ### Inherited properties -/

def Kind.name : Kind → String
  | .object => "Object"
  | .array => "Array"
  | .string => "String"
  | .number => "Number"
  | .boolean => "Boolean"
  | .function => "Function"

/-- The prototypes a property is looked up in, from the prototype of a type on. -/
def Kind.chain : Kind → List Kind
  | .object => [.object]
  | kind => [kind, .object]

/-- The type of a value that is neither undefined nor null. -/
def Value.kind : Value → Kind
  | .data (.arr _) => .array
  | .data (.str _) => .string
  | .data (.num _) => .number
  | .data (.bool _) => .boolean
  | .data _ => .object
  | .unit _ => .string
  | .constant _ => .number
  | .intrinsic (.prototype kind) => kind
  | _ => .function

/-- The prototype of a value, what `__proto__` reads. -/
def Value.proto : Value → Value
  | .intrinsic (.prototype .object) => .data .null
  | .intrinsic (.prototype _) => .intrinsic (.prototype .object)
  | value => .intrinsic (.prototype value.kind)

namespace Realm

variable (realm : Realm)

/-- A property a prototype has itself, read from a receiver whose prototype is `proto`. Functions of
the language may not be asked for their caller and their arguments. -/
def held (kind : Kind) (proto : Value) (part : String) : Option (Except Err Value) :=
  if part = "constructor" then some (.ok (.intrinsic (.constructor kind)))
  else if part = "__proto__" ∧ kind = .object then some (.ok proto)
  else if part = "length" ∧ kind ∈ [Kind.array, .string, .function] then some (.ok (.data (.num 0)))
  else if part = "name" ∧ kind = .function then some (.ok (.data (.str "")))
  else if (part = "caller" ∨ part = "arguments") ∧ kind = .function then
    some (.error (.other ("'caller', 'callee', and 'arguments' properties may not be accessed " ++
      "on strict mode functions or the arguments objects for calls to them")))
  else (realm.functions kind part).map fun name => .ok (.intrinsic (.function name))

/-- What is found in a chain of prototypes; undefined when it is in none. -/
def inherited (chain : List Kind) (proto : Value) (part : String) : Except Err Value :=
  (chain.findSome? fun kind => realm.held kind proto part).getD (.ok .undefined)

/-- A property a function has itself. -/
def ownOf : Intrinsic → String → Option Value
  | .prototype _, _ => none
  | .constructor kind, part =>
      if part = "prototype" then some (.intrinsic (.prototype kind))
      else if part = "name" then some (.data (.str kind.name))
      else if part = "length" then some (.data (.num 1))
      else match realm.statics kind part, kind with
        | some name, _ => some (.intrinsic (.function name))
        | none, .number => (realm.constants part).map .constant
        | none, _ => none
  | .function name, part =>
      if part = "name" then some (.data (.str name))
      else if part = "length" then some (.data (.num (realm.length name)))
      else none

/-- The property of a value that is neither undefined nor null. A prototype is looked up itself
before the ones behind it. -/
def property (value : Value) (part : String) : Except Err Value :=
  let own := match value with
    | .intrinsic object => realm.ownOf object part
    | value => value.own part
  match own with
  | some found => .ok found
  | none => realm.inherited value.kind.chain value.proto part

/-- The text of a function of the language. -/
def functionText (name : String) : String := "function " ++ name ++ "() \x7b [native code] \x7d"

/-- The text of an object of the language. -/
def intrinsicText : Intrinsic → String
  | .prototype .object => "[object Object]"
  | .prototype .array => ""
  | .prototype .string => ""
  | .prototype .number => "0"
  | .prototype .boolean => "false"
  | .prototype .function => functionText ""
  | .constructor kind => functionText kind.name
  | .function name => functionText name

/-- The text of one UTF-16 unit. -/
def unitText (code : UInt16) : String :=
  if code.toNat < 0xD800 ∨ 0xDFFF < code.toNat then String.ofList [Char.ofNat code.toNat]
  else realm.surrogate code

def text : Value → Except Err String
  | .undefined => .ok "undefined"
  | .data json => realm.asString json
  | .unit code => .ok (realm.unitText code)
  | .intrinsic object => .ok (intrinsicText object)
  | .constant text => .ok text

/-- The values of a context of plain data. -/
def values : Values Value where
  nullish value :=
    match value with
    | .undefined => true
    | .data .null => true
    | _ => false
  property := realm.property
  asString := realm.text

end Realm

/-! ### The names of the standard library -/

namespace Realm

/-- The functions of the prototypes. -/
def prototypeNames : Kind → List String
  | .object => ["hasOwnProperty", "isPrototypeOf", "propertyIsEnumerable", "toLocaleString",
      "toString", "valueOf", "__defineGetter__", "__defineSetter__", "__lookupGetter__",
      "__lookupSetter__"]
  | .array => ["at", "concat", "copyWithin", "entries", "every", "fill", "filter", "find",
      "findIndex", "findLast", "findLastIndex", "flat", "flatMap", "forEach", "includes", "indexOf",
      "join", "keys", "lastIndexOf", "map", "pop", "push", "reduce", "reduceRight", "reverse",
      "shift", "slice", "some", "sort", "splice", "toLocaleString", "toReversed", "toSorted",
      "toSpliced", "toString", "unshift", "values", "with"]
  | .string => ["anchor", "at", "big", "blink", "bold", "charAt", "charCodeAt", "codePointAt",
      "concat", "endsWith", "fixed", "fontcolor", "fontsize", "includes", "indexOf", "isWellFormed",
      "italics", "lastIndexOf", "link", "localeCompare", "match", "matchAll", "normalize", "padEnd",
      "padStart", "repeat", "replace", "replaceAll", "search", "slice", "small", "split",
      "startsWith", "strike", "sub", "substr", "substring", "sup", "toLocaleLowerCase",
      "toLocaleUpperCase", "toLowerCase", "toString", "toUpperCase", "toWellFormed", "trim",
      "trimEnd", "trimStart", "valueOf"]
  | .number => ["toExponential", "toFixed", "toLocaleString", "toPrecision", "toString", "valueOf"]
  | .boolean => ["toString", "valueOf"]
  | .function => ["apply", "bind", "call", "toString"]

/-- The functions of the constructors. -/
def staticNames : Kind → List String
  | .object => ["assign", "create", "defineProperties", "defineProperty", "entries", "freeze",
      "fromEntries", "getOwnPropertyDescriptor", "getOwnPropertyDescriptors", "getOwnPropertyNames",
      "getOwnPropertySymbols", "getPrototypeOf", "groupBy", "hasOwn", "is", "isExtensible",
      "isFrozen", "isSealed", "keys", "preventExtensions", "seal", "setPrototypeOf", "values"]
  | .array => ["from", "fromAsync", "isArray", "of"]
  | .string => ["fromCharCode", "fromCodePoint", "raw"]
  | .number => ["isFinite", "isInteger", "isNaN", "isSafeInteger", "parseFloat", "parseInt"]
  | _ => []

/-- The numbers `Number` holds. -/
def numberConstants : List (String × String) :=
  [("EPSILON", "2.220446049250313e-16"), ("MAX_SAFE_INTEGER", "9007199254740991"),
    ("MAX_VALUE", "1.7976931348623157e+308"), ("MIN_SAFE_INTEGER", "-9007199254740991"),
    ("MIN_VALUE", "5e-324"), ("NaN", "NaN"), ("NEGATIVE_INFINITY", "-Infinity"),
    ("POSITIVE_INFINITY", "Infinity")]

/-- Two functions of `String.prototype` have an older name too. -/
def standard (length : String → Nat) (asString : Json → Except Err String)
    (surrogate : UInt16 → String) : Realm where
  functions kind part :=
    if part ∈ prototypeNames kind then some part
    else if kind = .string ∧ part = "trimLeft" then some "trimStart"
    else if kind = .string ∧ part = "trimRight" then some "trimEnd"
    else none
  statics kind part := if part ∈ staticNames kind then some part else none
  constants part := (numberConstants.find? fun entry => entry.1 == part).map Prod.snd
  length := length
  asString := asString
  surrogate := surrogate

end Realm

end WaAutomation
