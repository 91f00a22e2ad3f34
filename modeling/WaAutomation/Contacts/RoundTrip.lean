/-
**Reading back a written file of contacts.**

A file of contacts can be laid out in many ways: `Written` is a cell with spaces around it and
perhaps quotes, `LineOf` a line of such cells, `FileOf` the lines with their breaks and blank lines
between them. A `CsvContact` carries that its texts can come back out of a cell at all.

* `splitRow_line` reads the cells of a line back, and `readTags_joined` the tags of a cell;
* `fileLines_file` reads the lines of a file back, whatever blank lines and breaks it has;
* `headed_titles` finds the columns of a header in any order, and `readRow_contact` reads a contact
  back from them;
* `csv_round_trip` is about whole files, with a header or without one;
* a row that was read holds no comma (`readRow_commaFree`), so `quoted_commas` says exactly when a
  file whose cells are all in quotes is read back.
-/

import WaAutomation.Model.Csv
import Mathlib.Tactic.MkIffOfInductiveProp

set_option linter.unusedSectionVars false

namespace WaAutomation.Csv

open Library

/-! ### Contacts to be written -/

/-- A text without line breaks, and without white space or a quote at its ends. -/
@[mk_iff]
structure Tidy (text : String) : Prop where
  oneLine : ∀ mark ∈ text.toList, mark ≠ '\r' ∧ mark ≠ '\n'
  first : ∀ mark ∈ text.toList.head?, isSpace mark = false ∧ mark ≠ '"'
  last : ∀ mark ∈ text.toList.getLast?, isSpace mark = false ∧ mark ≠ '"'

instance (text : String) : Decidable (Tidy text) :=
  have := List.decidableBAll (fun mark => mark ≠ '\r' ∧ mark ≠ '\n') text.toList
  have (mark : Option Char) : Decidable (∀ edge ∈ mark, isSpace edge = false ∧ edge ≠ '"') :=
    Option.decidableForallMem mark
  decidable_of_iff' _ (tidy_iff text)

def CommaFree (text : String) : Prop := ',' ∉ text.toList

instance (text : String) : Decidable (CommaFree text) :=
  inferInstanceAs (Decidable (',' ∉ text.toList))

/-- A clean cell text. -/
def Clean (text : String) : Prop := Tidy text ∧ CommaFree text

instance (text : String) : Decidable (Clean text) :=
  inferInstanceAs (Decidable (Tidy text ∧ CommaFree text))

/-- A tag that comes back out of a list of tags. -/
@[mk_iff]
structure TidyTag (tag : String) : Prop where
  tidy : Tidy tag
  given : tag ≠ ""
  whole : ∀ mark ∈ tag.toList, mark ≠ ';' ∧ mark ≠ '|'

instance (tag : String) : Decidable (TidyTag tag) :=
  have := List.decidableBAll (fun mark => mark ≠ ';' ∧ mark ≠ '|') tag.toList
  decidable_of_iff' _ (tidyTag_iff tag)

structure CsvContact where
  name : Option String
  phone : String
  tags : List String
  name_tidy : ∀ text ∈ name, Tidy text
  phone_tidy : Tidy phone
  phone_given : phone ≠ ""
  tags_tidy : ∀ tag ∈ tags, TidyTag tag

namespace CsvContact

/-- The row of a contact; no name and no tags are undefined. -/
def row (contact : CsvContact) : CsvContactRow :=
  ⟨orNull contact.name, contact.phone, if contact.tags = [] then none else some contact.tags⟩

/-- No text of the contact has a comma. -/
structure NoCommas (contact : CsvContact) : Prop where
  name : ∀ text ∈ contact.name, CommaFree text
  phone : CommaFree contact.phone
  tags : ∀ tag ∈ contact.tags, CommaFree tag

end CsvContact

/-! ### Layouts -/

inductive Column where
  | name | phone | tags | other
  deriving DecidableEq, Repr

/-- Tags with a separator between every two of them. -/
inductive Joined : List String → List Char → Prop
  | none : Joined [] []
  | one (tag : String) : Joined [tag] tag.toList
  | more {tag next : String} {rest : List String} {text : List Char} {separator : Char}
      (separates : separator = ';' ∨ separator = '|') (later : Joined (next :: rest) text) :
      Joined (tag :: next :: rest) (tag.toList ++ separator :: text)

/-- What a contact has in a column. -/
def CsvContact.Text (contact : CsvContact) : Column → String → Prop
  | .name, text => text = contact.name.getD ""
  | .phone, text => text = contact.phone
  | .tags, text => Joined contact.tags text.toList
  | .other, text => Clean text

/-- What a header has above a column, in any letter case. -/
def Titled (h : Helpers) : Column → String → Prop
  | .name, title => h.lower title = "name"
  | .phone, title => h.lower title = "phone"
  | .tags, title => h.lower title = "tags"
  | .other, title => h.lower title ∉ titles

instance (h : Helpers) (column : Column) (title : String) : Decidable (Titled h column title) :=
  match column with
  | .name | .phone | .tags => inferInstanceAs (Decidable (h.lower title = _))
  | .other => inferInstanceAs (Decidable (h.lower title ∉ titles))

/-- White space inside a line. -/
def Blank (pad : List Char) : Prop := ∀ mark ∈ pad, isSpace mark = true ∧ mark ≠ '\n'

instance (pad : List Char) : Decidable (Blank pad) :=
  List.decidableBAll (fun mark => isSpace mark = true ∧ mark ≠ '\n') pad

def inQuotes (text : String) : List Char := '"' :: text.toList ++ ['"']

/-- A cell: a text with white space around it, in quotes or not. -/
inductive Written (text : String) : List Char → Prop
  | plain {before after : List Char} (front : Blank before) (back : Blank after) :
      Written text (before ++ text.toList ++ after)
  | quoted {before after : List Char} (front : Blank before) (back : Blank after) :
      Written text (before ++ inQuotes text ++ after)

/-- A line of cells. -/
def LineOf (texts : List String) (line : List Char) : Prop :=
  ∃ cells, List.Forall₂ Written texts cells ∧ line = [','].intercalate cells

/-- A line break. -/
def Break (marks : List Char) : Prop := marks = ['\n'] ∨ marks = ['\r', '\n']

/-- A file of lines, with any line breaks, and with blank lines anywhere. -/
inductive FileOf : List (List Char) → List Char → Prop
  | done {pad : List Char} (blank : Blank pad) : FileOf [] pad
  | last (line : List Char) : FileOf [line] line
  | blank {pad marks content : List Char} {lines : List (List Char)} (blank : Blank pad)
      (breaks : Break marks) (later : FileOf lines content) : FileOf lines (pad ++ marks ++ content)
  | line {line marks content : List Char} {lines : List (List Char)} (breaks : Break marks)
      (later : FileOf lines content) : FileOf (line :: lines) (line ++ marks ++ content)

/-- A file that holds contacts: under a header with the three titles in any order among others, or
in the positional order with no title in the first line. -/
inductive Rendered (h : Helpers) (contacts : List CsvContact) (content : String) : Prop
  | headed {columns : List Column} {header : List String} {rows : List (List String)}
      {lines : List (List Char)}
      (complete : ∀ column ∈ [Column.name, .phone, .tags], columns.count column = 1)
      (titled : List.Forall₂ (Titled h) columns header) (clean : ∀ title ∈ header, Clean title)
      (carries : List.Forall₂ (fun contact row =>
        List.Forall₂ (CsvContact.Text contact) columns row) contacts rows)
      (written : List.Forall₂ LineOf (header :: rows) lines) (file : FileOf lines content.toList)
  | positional {rows : List (List String)} {lines : List (List Char)}
      (carries : List.Forall₂ (fun contact row =>
        List.Forall₂ (CsvContact.Text contact) [.name, .phone, .tags] row) contacts rows)
      (untitled : ∀ row ∈ rows.head?, ∀ text ∈ row, h.lower text ∉ titles)
      (written : List.Forall₂ LineOf rows lines) (file : FileOf lines content.toList)

/-! ### Cells -/

theorem Blank.space {pad : List Char} (blank : Blank pad) : ∀ mark ∈ pad, isSpace mark = true :=
  fun mark member => (blank mark member).1

theorem Blank.padded {before after : List Char} (front : Blank before) (back : Blank after)
    (text : List Char) : Text.Padded isSpace (before ++ text ++ after) text :=
  ⟨before, after, rfl, front.space, back.space⟩

theorem trim_tidy {text : String} (tidy : Tidy text) : trim text.toList = text.toList :=
  Text.trim_eq (fun mark first => (tidy.first mark first).1) fun mark last =>
    (tidy.last mark last).1

theorem trim_quoted (text : String) : trim (inQuotes text) = inQuotes text := by
  refine Text.trim_eq (fun mark first => ?_) fun mark last => ?_
  · cases first
    decide
  · rw [inQuotes, List.getLast?_concat] at last
    cases last
    decide

theorem stripQuotes_tidy {text : String} (tidy : Tidy text) :
    stripQuotes text.toList = text.toList := by
  have first : text.toList.head? ≠ some '"' := fun first => (tidy.first _ first).2 rfl
  have last : text.toList.getLast? ≠ some '"' := fun last => (tidy.last _ last).2 rfl
  simp only [stripQuotes, first, last, if_false]

theorem stripQuotes_quoted (text : String) : stripQuotes (inQuotes text) = text.toList := by
  simp only [stripQuotes, inQuotes, List.cons_append, List.head?_cons, List.tail_cons,
    List.getLast?_concat, List.dropLast_concat, if_true]

/-- A cell gives its text back. -/
theorem stripQuotes_written {text : String} (tidy : Tidy text) {cell : List Char}
    (written : Written text cell) : stripQuotes (trim cell) = text.toList := by
  cases written with
  | plain front back =>
    rw [trim, Text.trim_padded (front.padded back _), ← trim, trim_tidy tidy, stripQuotes_tidy tidy]
  | quoted front back =>
    rw [trim, Text.trim_padded (front.padded back _), ← trim, trim_quoted, stripQuotes_quoted]

theorem space_comma : isSpace ',' = false := by decide

/-- A mark that is neither white space nor a quote is in a cell only if it is in its text. -/
theorem mem_written {text : String} {mark : Char} (visible : ∀ pad, Blank pad → mark ∉ pad)
    (other : mark ≠ '"') {cell : List Char} (written : Written text cell) (inside : mark ∈ cell) :
    mark ∈ text.toList := by
  cases written with
  | plain front back =>
    simpa only [List.mem_append, visible _ front, visible _ back, false_or, or_false] using inside
  | quoted front back =>
    simpa only [inQuotes, List.cons_append, List.mem_append, List.mem_cons, List.not_mem_nil,
      visible _ front, visible _ back, other, false_or, or_false] using inside

theorem comma_written {text : String} (free : CommaFree text) {cell : List Char}
    (written : Written text cell) : ',' ∉ cell := by
  refine fun inside => free (mem_written (fun pad blank member => ?_) (by decide) written inside)
  exact Bool.false_ne_true (space_comma.symm.trans (blank _ member).1)

theorem newline_written {text : String} (tidy : Tidy text) {cell : List Char}
    (written : Written text cell) : '\n' ∉ cell := by
  intro inside
  have within := mem_written (fun pad blank member => (blank _ member).2 rfl) (by decide) written
    inside
  exact (tidy.oneLine _ within).2 rfl

/-! ### Lines -/

theorem forall₂_right {α β : Type} {holds : β → Prop} {first : List α} {second : List β}
    (all : List.Forall₂ (fun _ other => holds other) first second) :
    ∀ other ∈ second, holds other := by
  induction all with
  | nil => exact fun _ member => by cases member
  | cons here _ ih => exact List.forall_mem_cons.mpr ⟨here, ih⟩

/-- **A line gives its cells back**, also when it was trimmed as a whole before. -/
theorem splitRow_line {texts : List String} (given : texts ≠ [])
    (clean : ∀ text ∈ texts, Clean text) {line : List Char} (written : LineOf texts line) :
    splitRow (trim line) = texts := by
  obtain ⟨cells, written, rfl⟩ := written
  have both := (List.forall₂_and_left _ _).mpr ⟨clean, written⟩
  have apart : ∀ cell ∈ cells, ',' ∉ cell :=
    forall₂_right (both.imp fun text cell holds => comma_written holds.1.2 holds.2)
  have some_cell : cells ≠ [] := by
    rintro rfl
    cases written
    exact given rfl
  have pieces : ((trim ([','].intercalate cells)).splitOn ',').map trim = cells.map trim := by
    refine (Text.map_trim_splitOnP (fun mark space => ?_) _).trans ?_
    · exact Bool.eq_false_iff.mpr fun comma => by
        rw [beq_iff_eq.mp comma, space_comma] at space
        exact Bool.false_ne_true space
    · exact congrArg (List.map trim) (List.splitOn_intercalate ',' apart some_cell)
  calc splitRow (trim ([','].intercalate cells))
      = (((trim ([','].intercalate cells)).splitOn ',').map trim).map fun cell =>
          String.ofList (stripQuotes cell) := by
        rw [List.map_map]
        rfl
    _ = cells.map fun cell => String.ofList (stripQuotes (trim cell)) := by
        rw [pieces, List.map_map]
        rfl
    _ = texts := by
        rw [← List.forall₂_eq_eq_eq, List.forall₂_map_left_iff]
        refine (both.imp fun text cell holds => ?_).flip
        show String.ofList (stripQuotes (trim cell)) = text
        rw [stripQuotes_written holds.1.1 holds.2, String.ofList_toList]

/-- A line with at least two cells is not blank. -/
theorem trim_line_ne {texts : List String} (several : 1 < texts.length)
    (clean : ∀ text ∈ texts, Clean text) {line : List Char} (written : LineOf texts line) :
    trim line ≠ [] := by
  intro blank
  have given : texts ≠ [] := fun none => by simp [none] at several
  have cells := splitRow_line given clean written
  rw [blank] at cells
  rw [← cells] at several
  exact absurd several (by decide)

theorem newline_line {texts : List String} (clean : ∀ text ∈ texts, Clean text) {line : List Char}
    (written : LineOf texts line) : '\n' ∉ line := by
  obtain ⟨cells, written, rfl⟩ := written
  have both := (List.forall₂_and_left _ _).mpr ⟨clean, written⟩
  have apart : ∀ cell ∈ cells, '\n' ∉ cell :=
    forall₂_right (both.imp fun text cell holds => newline_written holds.1.1 holds.2)
  intro inside
  obtain comma | ⟨cell, member, there⟩ := Text.mem_intercalate inside
  · exact absurd comma (by decide)
  · exact apart cell member there

/-! ### Files -/

/-- A carriage return before a line feed ends its line. -/
theorem splitLines_pieces (content : List Char) :
    List.Forall₂ (fun piece line => piece = line ∨ piece = line ++ ['\r'])
      (content.splitOn '\n') (splitLines content) := by
  induction content with
  | nil => exact .cons (.inl rfl) .nil
  | cons mark rest ih =>
    rw [List.splitOn_cons_eq_if_modifyHead, splitLines]
    by_cases feed : mark = '\n'
    · rw [if_pos (beq_iff_eq.mpr feed), if_pos feed]
      exact .cons (.inl rfl) ih
    · rw [if_neg (mt beq_iff_eq.mp feed), if_neg feed]
      split
      · -- the carriage return is the only mark of its line here
        rename_i returns
        obtain ⟨rfl, next⟩ := returns
        obtain ⟨tail, rfl⟩ := List.head?_eq_some_iff.mp next
        rw [List.splitOn_cons_eq_if_modifyHead, if_pos (beq_self_eq_true _), splitLines,
          if_pos rfl] at ih ⊢
        cases ih with
        | cons _ later => exact .cons (.inr rfl) later
      · generalize rest.splitOn '\n' = pieces at ih ⊢
        generalize splitLines rest = lines at ih ⊢
        cases ih with
        | nil => exact .nil
        | cons first later => exact .cons (first.imp (congrArg _) (congrArg _)) later

theorem trim_return (line : List Char) : trim (line ++ ['\r']) = trim line :=
  Text.trim_padded ⟨[], ['\r'], rfl, fun _ member => (by cases member),
    List.forall_mem_singleton.mpr (by decide)⟩

theorem fileLines_splitOn (content : List Char) :
    fileLines content = ((content.splitOn '\n').map trim).filter fun line => line != [] := by
  unfold fileLines
  congr 1
  rw [← List.forall₂_eq_eq_eq, List.forall₂_map_left_iff, List.forall₂_map_right_iff]
  refine ((splitLines_pieces content).imp fun piece line ends => ?_).flip
  show trim line = trim piece
  obtain rfl | rfl := ends
  · rfl
  · exact (trim_return line).symm

/-- The first line of a file. -/
theorem fileLines_break {line marks : List Char} (whole : '\n' ∉ line) (breaks : Break marks)
    (content : List Char) :
    fileLines (line ++ marks ++ content) =
      ([trim line].filter fun line => line != []) ++ fileLines content := by
  have cut (line : List Char) (whole : '\n' ∉ line) :
      fileLines (line ++ '\n' :: content) =
        ([trim line].filter fun line => line != []) ++ fileLines content := by
    rw [fileLines_splitOn, fileLines_splitOn, List.splitOn_append_cons_self_of_not_mem whole,
      ← List.singleton_append, List.map_append, List.filter_append]
    rfl
  obtain rfl | rfl := breaks
  · rw [List.append_assoc]
    exact cut line whole
  · rw [show line ++ ['\r', '\n'] ++ content = (line ++ ['\r']) ++ '\n' :: content by simp,
      cut _ (by simp [whole]), trim_return]

theorem trim_blank {pad : List Char} (blank : Blank pad) : trim pad = [] := by
  have pads : Text.Padded isSpace pad [] :=
    ⟨pad, [], by simp, blank.space, fun _ member => (by cases member)⟩
  exact Text.trim_padded pads

theorem Blank.whole {pad : List Char} (blank : Blank pad) : '\n' ∉ pad :=
  fun member => (blank _ member).2 rfl

theorem filter_trim {line : List Char} (visible : trim line ≠ []) :
    ([trim line].filter fun line => line != []) = [trim line] :=
  List.filter_eq_self.mpr (by simpa using visible)

/-- **A file gives its lines back**, whatever breaks and blank lines it has. -/
theorem fileLines_file {lines : List (List Char)} {content : List Char}
    (file : FileOf lines content) :
    (∀ line ∈ lines, '\n' ∉ line ∧ trim line ≠ []) → fileLines content = lines.map trim := by
  have alone (line : List Char) (whole : '\n' ∉ line) :
      fileLines line = [trim line].filter fun line => line != [] := by
    rw [fileLines_splitOn, List.splitOn_eq_singleton whole]
    rfl
  induction file with
  | done blank =>
    intro _
    rw [alone _ blank.whole, trim_blank blank]
    rfl
  | last line =>
    intro visible
    obtain ⟨whole, visible⟩ := visible line (List.mem_singleton_self line)
    rw [alone _ whole, filter_trim visible]
    rfl
  | blank blank breaks _ ih =>
    intro visible
    rw [fileLines_break blank.whole breaks, trim_blank blank, ih visible]
    rfl
  | line breaks _ ih =>
    intro visible
    obtain ⟨⟨whole, here⟩, later⟩ := List.forall_mem_cons.mp visible
    rw [fileLines_break whole breaks, filter_trim here, ih later]
    rfl

/-! ### Tags -/

/-- The marks at the ends of a text between two texts that are not empty. -/
theorem tidy_join {first : String} {rest : List Char} {separator : Char} (tidy : Tidy first)
    (given : first ≠ "") (separates : separator = ';' ∨ separator = '|')
    (later : Tidy (String.ofList rest)) (some_rest : rest ≠ []) :
    Tidy (String.ofList (first.toList ++ separator :: rest)) := by
  have some_first : first.toList ≠ [] := fun none => given (String.toList_eq_nil_iff.mp none)
  obtain ⟨lines, _, ends⟩ := later
  rw [String.toList_ofList] at lines ends
  refine ⟨fun mark member => ?_, fun mark starts => ?_, fun mark final => ?_⟩
  · rw [String.toList_ofList, List.mem_append, List.mem_cons] at member
    obtain here | rfl | there := member
    · exact tidy.oneLine mark here
    · obtain rfl | rfl := separates <;> decide
    · exact lines mark there
  · rw [String.toList_ofList, List.head?_append_of_ne_nil _ some_first] at starts
    exact tidy.first mark starts
  · rw [String.toList_ofList, List.getLast?_append_of_ne_nil _ (List.cons_ne_nil _ _),
      List.getLast?_cons_of_ne_nil some_rest] at final
    exact ends mark final

/-- Joined tags make a tidy text, which is empty only when there are none. -/
theorem joined_tidy {tags : List String} {text : List Char} (joined : Joined tags text) :
    (∀ tag ∈ tags, TidyTag tag) →
      Tidy (String.ofList text) ∧ (tags ≠ [] → text ≠ []) := by
  induction joined with
  | none =>
    exact fun _ => ⟨⟨fun _ member => (by cases member), fun _ first => (by cases first),
      fun _ last => (by cases last)⟩, fun given => absurd rfl given⟩
  | one tag =>
    intro tidy
    have here := tidy tag (List.mem_singleton_self tag)
    rw [String.ofList_toList]
    exact ⟨here.tidy, fun _ none => here.given (String.toList_eq_nil_iff.mp none)⟩
  | more separates _ ih =>
    intro tidy
    obtain ⟨here, there⟩ := List.forall_mem_cons.mp tidy
    obtain ⟨later, some_rest⟩ := ih there
    exact ⟨tidy_join here.tidy here.given separates later (some_rest (List.cons_ne_nil _ _)),
      fun _ => by simp⟩

theorem joined_comma {tags : List String} {text : List Char} (joined : Joined tags text) :
    (∀ tag ∈ tags, CommaFree tag) → ',' ∉ text := by
  induction joined with
  | none => exact fun _ member => by cases member
  | one tag => exact fun free => free tag (List.mem_singleton_self tag)
  | more separates _ ih =>
    intro free member
    obtain ⟨here, there⟩ := List.forall_mem_cons.mp free
    rw [List.mem_append, List.mem_cons] at member
    obtain inside | rfl | later := member
    · exact here inside
    · obtain wrong | wrong := separates <;> exact absurd wrong (by decide)
    · exact ih there later

/-- **Joined tags are read back.** -/
theorem readTags_joined {tags : List String} {text : List Char} (joined : Joined tags text) :
    (∀ tag ∈ tags, TidyTag tag) → readTags (String.ofList text) = tags := by
  have whole {tag : String} (tidy : TidyTag tag) : ∀ mark ∈ tag.toList,
      (mark == ';' || mark == '|') = false := fun mark member => by
    simpa using tidy.whole mark member
  have own {tag : String} (tidy : TidyTag tag) :
      ([String.ofList (trim tag.toList)].filter fun tag => tag != "") = [tag] := by
    rw [trim_tidy tidy.tidy, String.ofList_toList]
    exact List.filter_eq_self.mpr (by simpa using tidy.given)
  induction joined with
  | none => exact fun _ => by decide
  | one tag =>
    intro tidy
    have here := tidy tag (List.mem_singleton_self tag)
    rw [readTags, String.toList_ofList, List.splitOnP_eq_singleton (whole here)]
    exact own here
  | @more tag next rest text separator separates _ ih =>
    intro tidy
    obtain ⟨here, there⟩ := List.forall_mem_cons.mp tidy
    have cuts : (separator == ';' || separator == '|') = true := by
      obtain rfl | rfl := separates <;> decide
    have later := ih there
    rw [readTags, String.toList_ofList] at later ⊢
    rw [List.splitOnP_append_cons_of_forall_mem (whole here) separator cuts,
      ← List.singleton_append, List.map_append, List.filter_append, later]
    exact congrArg (· ++ _) (own here)

/-! ### Rows -/

/-- The positions of the three fields among the columns. -/
def located (columns : List Column) : Columns :=
  ⟨columns.idxOf? .name, columns.idxOf? .phone, columns.idxOf? .tags⟩

/-- What a title says of its column. -/
theorem Titled.equal {h : Helpers} {column : Column} {title : String}
    (titled : Titled h column title) :
    (h.lower title == "name") = (column == .name) ∧
      (h.lower title == "phone") = (column == .phone) ∧
      (h.lower title == "tags") = (column == .tags) := by
  cases column with
  | name | phone | tags =>
    rw [show h.lower title = _ from titled]
    decide
  | other =>
    have absent : h.lower title ∉ titles := titled
    simp only [titles, List.mem_cons, List.not_mem_nil, or_false, not_or] at absent
    simp [absent, show ∀ column : Column, (Column.other == column) = decide (.other = column) from
      fun _ => rfl]

/-- **The header gives the positions of its columns**, whatever their order and letter case. -/
theorem headed_titles {h : Helpers} {columns : List Column} {header : List String}
    (titled : List.Forall₂ (Titled h) columns header) :
    headed (header.map h.lower) = located columns := by
  have position {column : Column} {title : String}
      (equal : ∀ before text, Titled h before text → (h.lower text == title) = (before == column)) :
      (header.map h.lower).idxOf? title = columns.idxOf? column := by
    induction titled with
    | nil => rfl
    | cons first _ ih =>
      rw [List.map_cons, List.idxOf?_cons, List.idxOf?_cons, equal _ _ first, ih]
  unfold headed located
  rw [position fun _ _ titled => titled.equal.1, position fun _ _ titled => titled.equal.2.1,
    position fun _ _ titled => titled.equal.2.2]

/-- A header with a title is recognised. -/
theorem hasHeader_titles {h : Helpers} {columns : List Column} {header : List String}
    (titled : List.Forall₂ (Titled h) columns header) (named : Column.name ∈ columns) :
    hasHeader (header.map h.lower) = true := by
  induction titled with
  | nil => cases named
  | @cons column title _ _ first _ ih =>
    rw [hasHeader, List.map_cons, List.any_cons, Bool.or_eq_true]
    obtain rfl | later := List.mem_cons.mp named
    · rw [show h.lower title = "name" from first]
      exact .inl (by decide)
    · exact .inr (ih later)

/-- The cell of a column. -/
theorem cell_located {holds : Column → String → Prop} {columns : List Column} {texts : List String}
    (carries : List.Forall₂ holds columns texts) {column : Column} (member : column ∈ columns) :
    ∃ index text, columns.idxOf? column = some index ∧ texts[index]? = some text ∧
      holds column text := by
  induction carries with
  | nil => cases member
  | @cons first text _ _ here _ ih =>
    rw [List.idxOf?_cons]
    by_cases same : first = column
    · subst same
      exact ⟨0, text, by simp, rfl, here⟩
    · obtain ⟨index, other, found, there, carried⟩ :=
        ih ((List.mem_cons.mp member).resolve_left (Ne.symm same))
      exact ⟨index + 1, other, by simp [same, found], there, carried⟩

/-- **A contact is read back from its cells.** -/
theorem readRow_contact {contact : CsvContact} {columns : List Column} {texts : List String}
    (complete : ∀ column ∈ [Column.name, .phone, .tags], column ∈ columns)
    (carries : List.Forall₂ contact.Text columns texts) {line : List Char}
    (cells : splitRow line = texts) : readRow (located columns) line = some contact.row := by
  obtain ⟨nameIdx, name, name_at, name_cell, rfl⟩ := cell_located carries (complete .name (by simp))
  obtain ⟨phoneIdx, phone, phone_at, phone_cell, rfl⟩ :=
    cell_located carries (complete .phone (by simp))
  obtain ⟨tagsIdx, tags, tags_at, tags_cell, joined⟩ :=
    cell_located carries (complete .tags (by simp))
  have joined : Joined contact.tags tags.toList := joined
  have given : orNull (some contact.phone) = some contact.phone :=
    Option.filter_some_pos (by simpa using contact.phone_given)
  have named : orNull (some (contact.name.getD "")) = orNull contact.name := by
    cases contact.name <;> rfl
  have tagged : (orNull (some tags)).map readTags =
      if contact.tags = [] then none else some contact.tags := by
    have read := readTags_joined joined contact.tags_tidy
    rw [String.ofList_toList] at read
    by_cases none : contact.tags = []
    · rw [none] at joined
      generalize text : tags.toList = marks at joined
      cases joined
      rw [String.toList_eq_nil_iff.mp text, if_pos none]
      rfl
    · have some_text := (joined_tidy joined contact.tags_tidy).2 none
      rw [orNull, Option.filter_some_pos (by simpa using mt String.toList_eq_nil_iff.mpr some_text),
        Option.map_some, read, if_neg none]
  unfold readRow located
  simp only [cells, name_at, phone_at, tags_at, name_cell, phone_cell, tags_cell, given, named,
    tagged]
  rfl

/-! ### Whole files -/

theorem text_clean {contact : CsvContact} (free : contact.NoCommas) {column : Column}
    {text : String} (carries : contact.Text column text) : Clean text := by
  cases column with
  | name =>
    rw [show text = _ from carries]
    cases name : contact.name with
    | none => exact ⟨⟨fun _ member => (by cases member), fun _ first => (by cases first),
        fun _ last => (by cases last)⟩, fun member => (by cases member)⟩
    | some text => exact ⟨contact.name_tidy text name, free.name text name⟩
  | phone =>
    rw [show text = _ from carries]
    exact ⟨contact.phone_tidy, free.phone⟩
  | tags =>
    refine ⟨?_, joined_comma carries free.tags⟩
    have tidy := (joined_tidy carries contact.tags_tidy).1
    rwa [String.ofList_toList] at tidy
  | other => exact carries

theorem line_whole {texts : List String} (several : 1 < texts.length)
    (clean : ∀ text ∈ texts, Clean text) {line : List Char} (written : LineOf texts line) :
    ('\n' ∉ line ∧ trim line ≠ []) ∧ splitRow (trim line) = texts := by
  have given : texts ≠ [] := fun none => by simp [none] at several
  exact ⟨⟨newline_line clean written, trim_line_ne several clean written⟩,
    splitRow_line given clean written⟩

/-- **The lines of contacts are read back.** -/
theorem lines_contacts {columns : List Column} (several : 1 < columns.length)
    (complete : ∀ column ∈ [Column.name, .phone, .tags], column ∈ columns)
    {contacts : List CsvContact} (free : ∀ contact ∈ contacts, contact.NoCommas)
    {rows : List (List String)} {lines : List (List Char)}
    (carries : List.Forall₂ (fun contact row =>
      List.Forall₂ (CsvContact.Text contact) columns row) contacts rows)
    (written : List.Forall₂ LineOf rows lines) :
    (∀ line ∈ lines, '\n' ∉ line ∧ trim line ≠ []) ∧
      (lines.map trim).filterMap (readRow (located columns)) = contacts.map CsvContact.row := by
  induction carries generalizing lines with
  | nil =>
    cases written
    exact ⟨fun _ member => (by cases member), rfl⟩
  | @cons contact row contacts rows first _ ih =>
    cases written with
    | @cons _ line _ lines here there =>
      obtain ⟨contact_free, later_free⟩ := List.forall_mem_cons.mp free
      have clean : ∀ text ∈ row, Clean text :=
        forall₂_right (first.imp fun _ _ text => text_clean contact_free text)
      obtain ⟨whole, cells⟩ := line_whole (first.length_eq ▸ several) clean here
      obtain ⟨wholes, reads⟩ := ih later_free there
      refine ⟨List.forall_mem_cons.mpr ⟨whole, wholes⟩, ?_⟩
      rw [List.map_cons, List.filterMap_cons_some (readRow_contact complete first cells), reads,
        List.map_cons]

/-- **CSV round trip**: a file with or without a header, in any layout, is read back as exactly the
contacts it was written from. -/
theorem csv_round_trip (h : Helpers) (contacts : List CsvContact)
    (free : ∀ contact ∈ contacts, contact.NoCommas) (content : String)
    (rendered : Rendered h contacts content) :
    parseCsvContacts h content = contacts.map CsvContact.row := by
  cases rendered with
  | @headed columns header rows lines complete titled clean carries written file =>
    have present : ∀ column ∈ [Column.name, .phone, .tags], column ∈ columns :=
      fun column member => List.count_pos_iff.mp (by rw [complete column member]; exact Nat.one_pos)
    have several : 1 < columns.length :=
      (List.subperm_of_subset (by decide : [Column.name, .phone, .tags].Nodup) present).length_le
        |> Nat.lt_of_lt_of_le (by decide)
    cases written with
    | @cons _ line _ lines here there =>
      obtain ⟨whole, cells⟩ := line_whole (titled.length_eq ▸ several) clean here
      obtain ⟨wholes, reads⟩ := lines_contacts several present free carries there
      rw [parseCsvContacts, fileLines_file file (List.forall_mem_cons.mpr ⟨whole, wholes⟩),
        List.map_cons]
      dsimp only
      rw [cells, hasHeader_titles titled (present .name (by simp)), if_pos rfl,
        headed_titles titled, reads]
  | @positional rows lines carries untitled written file =>
    obtain ⟨wholes, reads⟩ := lines_contacts (by decide) (fun _ member => member) free
        carries written
    rw [parseCsvContacts, fileLines_file file wholes]
    cases written with
    | nil =>
      cases carries
      rfl
    | @cons row line rows lines here _ =>
      cases carries with
      | @cons contact _ contacts _ first _ =>
        have clean : ∀ text ∈ row, Clean text :=
          forall₂_right (first.imp fun _ _ text =>
            text_clean (free contact List.mem_cons_self) text)
        have length : row.length = 3 := first.length_eq.symm
        obtain ⟨_, cells⟩ := line_whole (by omega) clean here
        have no_header : hasHeader (row.map h.lower) = false := by
          rw [hasHeader, List.any_map, List.any_eq_false]
          intro text member found
          exact untitled row rfl text member (List.contains_iff_mem.mp found)
        rw [List.map_cons]
        dsimp only
        rw [cells, no_header, if_neg Bool.false_ne_true, ← List.map_cons]
        exact reads

namespace Example

/-- Helpers whose lower case folds letters. -/
def folding : Helpers := { WaAutomation.Example.helpers with lower := String.toLower }

def ann : CsvContact where
  name := some "Ann"
  phone := "628"
  tags := ["vip", "new"]
  name_tidy := by decide
  phone_tidy := by decide
  phone_given := by decide
  tags_tidy := by decide

theorem ann_free : ann.NoCommas := ⟨by decide, by decide, by decide⟩

/-- A header with a fourth column, a blank line, and a line without a break. -/
def file : String := "PHONE,City, \"Name\",tags\r\n \n628,,\"Ann\",vip;new"

/-- A cell without spaces and quotes. -/
theorem bare (text : String) : Written text text.toList := by
  have blank : Blank [] := by decide
  have written : Written text ([] ++ text.toList ++ []) := .plain blank blank
  rwa [List.nil_append, List.append_nil] at written

theorem vip_new : Joined ["vip", "new"] "vip;new".toList := .more (.inl rfl) (.one "new")

theorem file_rendered : Rendered folding [ann] file := by
  have blank : Blank [] := by decide
  have spaced : Blank [' '] := by decide
  refine @Rendered.headed folding [ann] file [.phone, .other, .name, .tags]
    ["PHONE", "City", "Name", "tags"] [["628", "", "Ann", "vip;new"]]
    ["PHONE,City, \"Name\",tags".toList, "628,,\"Ann\",vip;new".toList]
    (by decide) ?_ (by decide) ?_ ?_ ?_
  · exact .cons (by decide +kernel) (.cons (by decide +kernel) (.cons (by decide +kernel)
      (.cons (by decide +kernel) .nil)))
  · exact .cons (.cons rfl (.cons (show Clean "" by decide) (.cons rfl (.cons vip_new .nil)))) .nil
  · refine .cons ⟨_, .cons (bare _) (.cons (bare _) (.cons (.quoted spaced blank)
      (.cons (bare _) .nil))), rfl⟩ (.cons ⟨_, .cons (bare _) (.cons (bare _)
      (.cons (.quoted blank blank) (.cons (bare _) .nil))), rfl⟩ .nil)
  · exact .line (.inr rfl) (.blank spaced (.inl rfl) (.last _))

end Example

theorem csv_round_trip_example :
    parseCsvContacts Example.folding Example.file = [⟨some "Ann", "628", some ["vip", "new"]⟩] :=
  csv_round_trip Example.folding [Example.ann] (List.forall_mem_singleton.mpr Example.ann_free)
    Example.file Example.file_rendered

/-! ### Commas in quotes -/

theorem stripQuotes_sublist (text : List Char) : (stripQuotes text).Sublist text := by
  have opened : (if text.head? = some '"' then text.tail else text).Sublist text := by
    split
    · exact List.tail_sublist text
    · exact List.Sublist.refl text
  unfold stripQuotes
  dsimp only
  generalize (if text.head? = some '"' then text.tail else text) = rest at opened ⊢
  split
  · exact (List.dropLast_sublist _).trans opened
  · exact opened

theorem splitRow_commaFree {line : List Char} : ∀ cell ∈ splitRow line, CommaFree cell := by
  refine List.forall_mem_map.mpr fun piece member inside => ?_
  rw [String.toList_ofList] at inside
  have there := ((stripQuotes_sublist _).trans (Text.trim_sublist piece)).subset inside
  have joined := (Text.mem_splitOnP piece member ',' there).2
  exact absurd joined (by decide)

theorem readTags_commaFree {raw : String} (free : CommaFree raw) :
    ∀ tag ∈ readTags raw, CommaFree tag := by
  intro tag member inside
  obtain ⟨piece, listed, rfl⟩ := List.mem_map.mp (List.mem_filter.mp member).1
  rw [String.toList_ofList] at inside
  exact free (Text.mem_splitOnP piece listed ',' ((Text.trim_sublist piece).subset inside)).1

/-- **A row that was read holds no comma.** -/
theorem readRow_commaFree {columns : Columns} {line : List Char} {row : CsvContactRow}
    (read : readRow columns line = some row) :
    (∀ text ∈ row.name, CommaFree text) ∧ CommaFree row.phone ∧
      ∀ tags ∈ row.tags, ∀ tag ∈ tags, CommaFree tag := by
  have free {cell : Option String} (listed : ∀ text ∈ cell, text ∈ splitRow line) :
      ∀ text ∈ orNull cell, CommaFree text := fun text given =>
    splitRow_commaFree text (listed text (Option.filter_eq_some_iff.mp given).1)
  unfold readRow at read
  dsimp only at read
  split at read
  · cases read
  · rename_i phone given
    cases read
    refine ⟨free ?_, free ?_ phone given, fun tags tagged tag member => ?_⟩
    · cases columns.nameIdx <;> exact fun _ => List.mem_of_getElem?
    · cases columns.phoneIdx <;> exact fun _ => List.mem_of_getElem?
    · obtain ⟨raw, listed, rfl⟩ := Option.map_eq_some_iff.mp tagged
      refine readTags_commaFree (free ?_ raw listed) tag member
      cases columns.tagsIdx with
      | none => exact fun _ absent => by cases absent
      | some index => exact fun _ => List.mem_of_getElem?

theorem parse_commaFree (h : Helpers) (content : String) : ∀ row ∈ parseCsvContacts h content,
    (∀ text ∈ row.name, CommaFree text) ∧ CommaFree row.phone ∧
      ∀ tags ∈ row.tags, ∀ tag ∈ tags, CommaFree tag := by
  intro row member
  unfold parseCsvContacts at member
  split at member
  · cases member
  · dsimp only at member
    split at member
    · obtain ⟨line, _, read⟩ := List.mem_filterMap.mp member
      exact readRow_commaFree read
    · obtain ⟨line, _, read⟩ := List.mem_filterMap.mp member
      exact readRow_commaFree read

/-- A line with every cell in quotes. -/
def quotedLine (texts : List String) : List Char := [','].intercalate (texts.map inQuotes)

theorem lineOf_quoted (texts : List String) : LineOf texts (quotedLine texts) := by
  have blank : Blank [] := by decide
  refine ⟨texts.map inQuotes, List.forall₂_map_right_iff.mpr (List.forall₂_same.mpr ?_), rfl⟩
  intro text _
  have written : Written text ([] ++ inQuotes text ++ []) := .quoted blank blank
  rwa [List.nil_append, List.append_nil] at written

/-- **Quoted cells are read as one cell exactly when they hold no comma.** -/
theorem quoted_commas (h : Helpers) (lower : ∀ title ∈ titles, h.lower title = title)
    (contacts : List CsvContact) (header : List Char) (rows : List (List String))
    (content : String) (written : LineOf titles header)
    (carries : List.Forall₂ (fun contact row =>
      List.Forall₂ (CsvContact.Text contact) [.name, .phone, .tags] row) contacts rows)
    (file : FileOf (header :: rows.map quotedLine) content.toList) :
    parseCsvContacts h content = contacts.map CsvContact.row ↔
      ∀ contact ∈ contacts, contact.NoCommas := by
  constructor
  · intro reads contact member
    -- every row that was read is free of commas, so the contacts are
    have row : contact.row ∈ parseCsvContacts h content :=
      reads ▸ List.mem_map_of_mem member
    obtain ⟨name, phone, tags⟩ := parse_commaFree h content _ row
    refine ⟨fun text named => ?_, phone, fun tag listed => ?_⟩
    · by_cases empty : text = ""
      · subst empty
        decide
      · refine name text ?_
        have given : orNull (some text) = some text := Option.filter_some_pos (by simpa using empty)
        rw [CsvContact.row, show contact.name = some text from named, given]
        rfl
    · refine tags contact.tags ?_ tag listed
      rw [CsvContact.row, if_neg (List.ne_nil_of_mem listed)]
      rfl
  · intro free
    refine csv_round_trip h contacts free content (.headed (by decide) ?_ (by decide) carries
      (.cons written ?_) file)
    · exact .cons (lower "name" (by decide)) (.cons (lower "phone" (by decide))
        (.cons (lower "tags" (by decide)) .nil))
    · exact List.forall₂_map_right_iff.mpr (List.forall₂_same.mpr fun row _ => lineOf_quoted row)

namespace Example

theorem folding_lower : ∀ title ∈ titles, folding.lower title = title := by decide +kernel

def quotedFile : String := "name,phone,tags\n\"Ann\",\"628\",\"vip;new\"\n"

/-- A contact whose name has a comma. -/
def lee : CsvContact := { ann with name := some "Lee, Ann", name_tidy := by decide }

def leeFile : String := "name,phone,tags\n\"Lee, Ann\",\"628\",\"vip;new\"\n"

theorem header_written : LineOf titles "name,phone,tags".toList :=
  ⟨_, .cons (bare _) (.cons (bare _) (.cons (bare _) .nil)), rfl⟩

end Example

theorem quoted_commas_example :
    parseCsvContacts Example.folding Example.quotedFile = [Example.ann.row] :=
  (quoted_commas Example.folding Example.folding_lower [Example.ann] "name,phone,tags".toList
    [["Ann", "628", "vip;new"]] Example.quotedFile Example.header_written
    (.cons (.cons rfl (.cons rfl (.cons Example.vip_new .nil))) .nil)
    (.line (.inl rfl) (.line (.inl rfl) (.done (by decide))))).mpr
    (List.forall_mem_singleton.mpr Example.ann_free)

/-- **A comma in quotes cuts the cell**: the file of one contact gives another one. -/
theorem quoted_comma_cut :
    List.Forall₂ Example.lee.Text [.name, .phone, .tags] ["Lee, Ann", "628", "vip;new"] ∧
    LineOf titles "name,phone,tags".toList ∧
    FileOf ["name,phone,tags".toList, quotedLine ["Lee, Ann", "628", "vip;new"]]
      Example.leeFile.toList ∧
    Example.lee.row = ⟨some "Lee, Ann", "628", some ["vip", "new"]⟩ ∧
    parseCsvContacts Example.folding Example.leeFile = [⟨some "Lee", "Ann", some ["628"]⟩] :=
  ⟨.cons rfl (.cons rfl (.cons Example.vip_new .nil)), Example.header_written,
    .line (.inl rfl) (.line (.inl rfl) (.done (by decide))), rfl, by decide +kernel⟩

end WaAutomation.Csv
