/-
**CSV files of contacts.**

`parseCsvContacts`. A text is a list of characters; the separators, the quotes and the white space
the parser looks for are single UTF-16 units, so cutting by characters is cutting by units. An index
that is `none` here is `-1` in the source.
-/

import WaAutomation.Library.Text
import WaAutomation.Model.Contacts

set_option linter.unusedSectionVars false

namespace WaAutomation

open Library

namespace Csv

/-! ### Characters, lines and cells -/

/-- The white space and line terminators `trim` removes. -/
def isSpace (mark : Char) : Bool :=
  let code := mark.toNat
  (9 ≤ code && code ≤ 13) || code == 0x20 || code == 0xA0 || code == 0x1680 ||
    (0x2000 ≤ code && code ≤ 0x200A) || code == 0x2028 || code == 0x2029 || code == 0x202F ||
    code == 0x205F || code == 0x3000 || code == 0xFEFF

def trim (text : List Char) : List Char := Text.trim isSpace text

/-- The lines of `split(/\r?\n/)`: a carriage return right before a line feed belongs to the line
break. -/
def splitLines : List Char → List (List Char)
  | [] => [[]]
  | mark :: rest =>
      if mark = '\n' then [] :: splitLines rest
      else if mark = '\r' ∧ rest.head? = some '\n' then splitLines rest
      else (splitLines rest).modifyHead (mark :: ·)

/-- The lines that are not blank, trimmed. -/
def fileLines (content : List Char) : List (List Char) :=
  ((splitLines content).map trim).filter fun line => line != []

/-- The text of `replace(/^"|"$/g, '')`. -/
def stripQuotes (text : List Char) : List Char :=
  let opened := if text.head? = some '"' then text.tail else text
  if opened.getLast? = some '"' then opened.dropLast else opened

/-- The cells of a line. -/
def splitRow (line : List Char) : List String :=
  (line.splitOn ',').map fun cell => String.ofList (stripQuotes (trim cell))

/-! ### The header -/

/-- The titles of the columns the parser reads. -/
def titles : List String := ["name", "phone", "tags"]

/-- The columns of the three fields. -/
structure Columns where
  nameIdx : Option Nat
  phoneIdx : Option Nat
  tagsIdx : Option Nat
  deriving DecidableEq, Repr

def hasHeader (header : List String) : Bool := header.any fun title => titles.contains title

/-- The positions of a file without a header. -/
def positional : Columns := ⟨some 0, some 1, some 2⟩

/-- The positions the header gives. -/
def headed (header : List String) : Columns :=
  ⟨header.idxOf? "name", header.idxOf? "phone", header.idxOf? "tags"⟩

/-! ### The rows -/

/-- The tags of a cell. -/
def readTags (raw : String) : List String :=
  ((raw.toList.splitOnP fun mark => mark == ';' || mark == '|').map fun tag =>
    String.ofList (trim tag)).filter fun tag => tag != ""

/-- The row of a line; none when its phone is missing or empty. -/
def readRow (columns : Columns) (line : List Char) : Option CsvContactRow :=
  let cols := splitRow line
  let phone := match columns.phoneIdx with
    | some phoneIdx => cols[phoneIdx]?
    | none => cols[1]?
  let tagsRaw := match columns.tagsIdx with
    | some tagsIdx => cols[tagsIdx]?
    | none => none
  let name := match columns.nameIdx with
    | some nameIdx => cols[nameIdx]?
    | none => cols[0]?
  match orNull phone with
  | none => none
  | some phone => some ⟨orNull name, phone, (orNull tagsRaw).map readTags⟩

end Csv

def parseCsvContacts (h : Helpers) (content : String) : List CsvContactRow :=
  match Csv.fileLines content.toList with
  | [] => []
  | first :: rest =>
      let header := (Csv.splitRow first).map h.lower
      if Csv.hasHeader header then rest.filterMap (Csv.readRow (Csv.headed header))
      else (first :: rest).filterMap (Csv.readRow Csv.positional)

end WaAutomation
