/-
**The columns of a file with a header.**

The parser reads a field whose title the header lacks from the position the field has in a file
without a header, also when another title stands there.

* `titledRow` is the row of a line by the titles alone, `Mixed` the place where the parser leaves
  it;
* `readRow_titled_iff` says when the two agree on a line, and `filterMap_eq_iff` takes this to
  files;
* `reached` are the lines an import gets through, and `lastName_reached` the name they give;
* `columns_mixed` says exactly when a file is read by its titles, and when the import of a file
  without names leaves the names of the contacts alone.
-/

import WaAutomation.Contacts.Import

set_option linter.unusedSectionVars false

namespace WaAutomation.Headers

open Library ContactsService Csv Imports

/-! ### Reading by the titles -/

section Lines

variable (header : List String)

/-- One of the titles stands at the position. -/
def occupied (position : Nat) : Bool := header[position]?.any titles.contains

/-- The title is missing, and another one stands at the position of its field. -/
def Mixed (title : String) (position : Nat) : Prop :=
  title ∉ header ∧ occupied header position = true

instance (title : String) (position : Nat) : Decidable (Mixed header title position) :=
  inferInstanceAs (Decidable (title ∉ header ∧ occupied header position = true))

/-- The cell of a line at a position, unless it is empty. -/
def filled (line : List Char) (position : Nat) : Option String := orNull (splitRow line)[position]?

/-- The position a field is read from. -/
def source (title : String) (position : Nat) : Nat := (header.idxOf? title).getD position

/-- The cell of a field by the titles: no other field's column stands in for a missing one. -/
def titledCell (line : List Char) (title : String) (position : Nat) : Option String :=
  if Mixed header title position then none else filled line (source header title position)

/-- The tags are read from their column only. -/
def titledTags (line : List Char) : Option (List String) :=
  ((header.idxOf? "tags").bind (filled line)).map readTags

/-- The row of a line by the titles. -/
def titledRow (line : List Char) : Option CsvContactRow :=
  (titledCell header line "phone" 1).map fun phone =>
    ⟨titledCell header line "name" 0, phone, titledTags header line⟩

/-- Where a column stands in for another one, the line has nothing in it: no phone in the place of a
phone, and no name in the place of a name unless the line has no phone. -/
def Unmixed (line : List Char) : Prop :=
  (Mixed header "phone" 1 → filled line 1 = none) ∧
    (Mixed header "name" 0 →
      filled line 0 = none ∨ filled line (source header "phone" 1) = none)

instance (line : List Char) : Decidable (Unmixed header line) :=
  inferInstanceAs (Decidable ((_ → _) ∧ (_ → _)))

variable {header} {line : List Char}

theorem source_missing {title : String} (missing : title ∉ header) (position : Nat) :
    source header title position = position := by
  unfold source
  rw [List.idxOf?_eq_none_iff.mpr missing]
  rfl

/-- What the parser reads. -/
theorem readRow_headed : readRow (headed header) line =
    (filled line (source header "phone" 1)).map fun phone =>
      ⟨filled line (source header "name" 0), phone, titledTags header line⟩ := by
  unfold readRow headed titledTags filled source
  cases header.idxOf? "name" <;> cases header.idxOf? "phone" <;> cases header.idxOf? "tags"
  all_goals
    simp only [Option.getD_none, Option.getD_some]
    split
    · rename_i missing
      rw [missing]
      rfl
    · rename_i given
      rw [given]
      rfl

/-- **When a line is read by the titles.** -/
theorem readRow_titled_iff :
    readRow (headed header) line = titledRow header line ↔ Unmixed header line := by
  rw [readRow_headed]
  unfold titledRow titledCell Unmixed
  by_cases phone : Mixed header "phone" 1
  · -- the titles give no row
    rw [if_pos phone, Option.map_none, Option.map_eq_none_iff, source_missing phone.1]
    exact ⟨fun none => ⟨fun _ => none, fun _ => .inr none⟩, fun unmixed => unmixed.1 phone⟩
  · rw [if_neg phone]
    cases filled line (source header "phone" 1) with
    | none => exact iff_of_true rfl ⟨fun mixed => absurd mixed phone, fun _ => .inr rfl⟩
    | some number =>
      by_cases name : Mixed header "name" 0
      · rw [if_pos name, source_missing name.1]
        constructor
        · intro same
          exact ⟨fun mixed => absurd mixed phone,
            fun _ => .inl (congrArg CsvContactRow.name (Option.some.inj same))⟩
        · rintro ⟨_, unnamed⟩
          rw [(unnamed name).resolve_right (by simp)]
      · rw [if_neg name]
        exact iff_of_true rfl ⟨fun mixed => absurd mixed phone, fun mixed => absurd mixed name⟩

/-- A reading that drops no line another one keeps. -/
theorem filterMap_eq_iff {α β : Type} {first second : α → Option β} {items : List α}
    (below : ∀ item, first item = none → second item = none) :
    items.filterMap first = items.filterMap second ↔ ∀ item ∈ items, first item = second item := by
  have shorter (items : List α) :
      (items.filterMap second).length ≤ (items.filterMap first).length := by
    induction items with
    | nil => exact le_rfl
    | cons item rest ih =>
      rw [List.filterMap_cons, List.filterMap_cons]
      cases here : first item with
      | none =>
        rw [below item here]
        exact ih
      | some value =>
        cases second item with
        | none => exact ih.trans (Nat.le_succ _)
        | some other => exact Nat.succ_le_succ ih
  refine ⟨fun same => ?_, fun all => List.filterMap_congr all⟩
  induction items with
  | nil => exact fun _ none => (by cases none)
  | cons item rest ih =>
    rw [List.filterMap_cons, List.filterMap_cons] at same
    cases here : first item with
    | none =>
      rw [here, below item here] at same
      exact List.forall_mem_cons.mpr ⟨here.trans (below item here).symm, ih same⟩
    | some value =>
      rw [here] at same
      cases there : second item with
      | none =>
        rw [there] at same
        have longer : (rest.filterMap first).length + 1 = (rest.filterMap second).length :=
          congrArg List.length same
        exact absurd (shorter rest) (by omega)
      | some other =>
        rw [there] at same
        obtain ⟨rfl, later⟩ := List.cons.inj same
        exact List.forall_mem_cons.mpr ⟨here.trans there.symm, ih later⟩

theorem titledRow_below (missing : readRow (headed header) line = none) :
    titledRow header line = none := by
  rw [readRow_headed, Option.map_eq_none_iff] at missing
  unfold titledRow titledCell
  rw [missing, ite_self]
  rfl

end Lines

/-! ### What an import makes of it -/

section Imports

/-- The lines an import gets through: all before the first one whose row the database rejects. -/
def reached (read : List Char → Option CsvContactRow) :
    Program.Tape Input → List (List Char) → List (List Char)
  | _, [] => []
  | tape, line :: lines =>
      (read line).elim (line :: reached read tape lines) fun row =>
        if Imports.phoneOf row = "" then line :: reached read tape lines
        else if Accepts tape row then line :: reached read tape.advance.advance lines
        else []

/-- The last cell that is filled at the first position, in the lines with a phone. -/
def lastFirst (index : Nat) (phone : String) (lines : List (List Char)) : Option String :=
  ((lines.filter fun line => (filled line index).any fun given =>
    normalizePhone given != "" && normalizePhone given == phone).filterMap fun line =>
      filled line 0).getLast?

/-- No contact has another name than before. -/
def NamesKept (before after : List Contact) : Prop :=
  ∀ old ∈ before, ∀ new ∈ after, new.id = old.id → new.name = old.name

theorem taken_reached {read : List Char → Option CsvContactRow} {lines : List (List Char)} :
    ∀ {tape : Program.Tape Input},
      taken tape (lines.filterMap read) = (reached read tape lines).filterMap read := by
  induction lines with
  | nil => exact rfl
  | cons line rest ih =>
    intro tape
    rw [List.filterMap_cons, reached]
    cases here : read line with
    | none =>
      rw [Option.elim_none, List.filterMap_cons, here]
      exact ih
    | some row =>
      rw [Option.elim_some]
      dsimp only
      by_cases given : Imports.phoneOf row = ""
      · rw [taken_digitless given, if_pos given, List.filterMap_cons, here, ih]
      · by_cases accepts : Accepts tape row
        · rw [taken_accepts given accepts, if_neg given, if_pos accepts, List.filterMap_cons, here,
            ih]
        · rw [taken_rejects given accepts, if_neg given, if_neg accepts, List.filterMap_nil]

/-- The last name that rows without a name column give. -/
theorem lastName_lines {header : List String} (untitled : "name" ∉ header) {phone : String}
    (lines : List (List Char)) : lastName phone (lines.filterMap (readRow (headed header))) =
      lastFirst (source header "phone" 1) phone lines := by
  unfold lastName lastFirst
  congr 1
  induction lines with
  | nil => rfl
  | cons line rest ih =>
    have row : readRow (headed header) line =
        (filled line (source header "phone" 1)).map fun given =>
        ⟨filled line 0, given, titledTags header line⟩ := by
      rw [readRow_headed, source_missing untitled]
    rw [List.filterMap_cons, row, List.filter_cons]
    cases filled line (source header "phone" 1) with
    | none => exact ih
    | some given =>
      have name : givenName ⟨filled line 0, given, titledTags header line⟩ = filled line 0 :=
        orNull_orNull _
      rw [Option.map_some, Option.any_some]
      dsimp only
      rw [List.filter_cons]
      by_cases about : About phone ⟨filled line 0, given, titledTags header line⟩ = true
      · have about' : (normalizePhone given != "" && normalizePhone given == phone) = true := about
        rw [if_pos about, if_pos about', List.filterMap_cons, List.filterMap_cons, name, ih]
      · have about' : ¬(normalizePhone given != "" && normalizePhone given == phone) = true := about
        rw [if_neg about, if_neg about', ih]

variable {ws user : Uuid} {tape : Program.Tape Input} {store : Store}

/-- A contact is known by its id. -/
theorem contact_of_id {contacts : List Contact} (sound : Sound contacts) {old new : Contact}
    (left : old ∈ contacts) (right : new ∈ contacts) (same : new.id = old.id) : new = old :=
  Rows.unique sound.ids right left (congrArg (fun id => (id, "")) same)

/-- The last name of rows that are kept is kept of theirs. -/
theorem lastName_kept {phone : String} (rows : List CsvContactRow) :
    lastName phone (rows.map kept) = (lastName phone rows).map (cut 100) := by
  have names (row : CsvContactRow) : (givenName ∘ kept) row = (givenName row).map (cut 100) :=
    givenName_kept
  unfold lastName
  rw [List.filter_map, List.filterMap_map, List.filterMap_congr fun row _ => names row,
    ← List.map_filterMap, List.getLast?_map]
  rfl

/-- The names of the contacts an import leaves. -/
theorem after_names {rows : List CsvContactRow} {contacts added : List Contact}
    (sound : Sound (after ws rows contacts added)) :
    NamesKept contacts (after ws rows contacts added) ↔
      ∀ old ∈ contacts, old.workspaceId = ws →
        ∀ name ∈ lastName old.phone rows, old.name = some name := by
  have kept (old : Contact) (member : old ∈ contacts) :
      revise ws rows old ∈ after ws rows contacts added :=
    List.mem_append_left _ (List.mem_map_of_mem member)
  constructor
  · intro names old member own name last
    have same := names old member _ (kept old member) revise_key.1
    rw [revise_here own] at same
    have here : lastName old.phone rows = some name := last
    have revised_name : (revised rows old).name = (lastName old.phone rows).or old.name := rfl
    rw [revised_name, here, Option.some_or] at same
    exact same.symm
  · intro last old member new listed same
    obtain rfl : new = revise ws rows old :=
      contact_of_id sound (kept old member) listed (same.trans revise_key.1.symm)
    by_cases own : old.workspaceId = ws
    · rw [revise_here own]
      show (lastName old.phone rows).or old.name = old.name
      cases given : lastName old.phone rows with
      | none => rfl
      | some name => exact (last old member own name given).symm
    · unfold revise
      rw [if_neg own]

/-- **When an import leaves the names alone.** -/
theorem import_names (sound : Sound (store.db .contacts)) (ids : Fresh tape (store.db .contacts))
    (rows : List CsvContactRow) :
    NamesKept (store.db .contacts)
        (((importMany (some ws) user rows).run exec tape store).2.2.db .contacts) ↔
      (Imports.Admitted ws user tape store → ∀ old ∈ store.db .contacts, old.workspaceId = ws →
        ∀ name ∈ lastName old.phone (taken tape.advance rows), old.name = some (cut 100 name)) := by
  by_cases admitted : Imports.Admitted ws user tape store
  · obtain ⟨_, _, _, ran, loop⟩ := importMany_run admitted sound ids rows
    rw [ran]
    dsimp only
    rw [holding_contacts, after_names loop.sound]
    simp only [lastName_kept, Option.mem_map, forall_exists_index, and_imp,
      forall_apply_eq_imp_iff₂]
    exact ⟨fun last _ => last, fun last => last admitted⟩
  · obtain ⟨_, _, refused⟩ := @importMany_refused ws user store tape rows admitted
    rw [refused]
    refine iff_of_true (fun old member new listed same => ?_) fun wrong => absurd wrong admitted
    rw [contact_of_id sound member listed same]

end Imports

/-- **A file with a header is read by its titles exactly when nothing stands in for a missing
column.** The import of a file without names leaves the names alone exactly when each contact
already has the name that the last filled first cell of its phone would give it, cut to the
column. -/
theorem columns_mixed (h : Helpers) (content : String) {first : List Char} {rest : List (List Char)}
    (lines : fileLines content.toList = first :: rest)
    (recognised : hasHeader ((splitRow first).map h.lower) = true) :
    let header := (splitRow first).map h.lower
    (parseCsvContacts h content = rest.filterMap (titledRow header) ↔
      ∀ line ∈ rest, Unmixed header line) ∧
    ("phone" ∈ header → "name" ∉ header →
      ∀ (ws user : Uuid) (tape : Program.Tape Input) (store : Store),
        Sound (store.db .contacts) → Fresh tape (store.db .contacts) →
        (NamesKept (store.db .contacts)
          (((importMany (some ws) user (parseCsvContacts h content)).run
            exec tape store).2.2.db .contacts) ↔
          (Imports.Admitted ws user tape store →
            ∀ old ∈ store.db .contacts, old.workspaceId = ws →
              ∀ name ∈ lastFirst (source header "phone" 1) old.phone
                  (reached (readRow (headed header)) tape.advance rest),
                old.name = some (cut 100 name)))) := by
  intro header
  have reads : parseCsvContacts h content = rest.filterMap (readRow (headed header)) := by
    unfold parseCsvContacts
    rw [lines]
    exact if_pos recognised
  rw [reads]
  constructor
  · rw [filterMap_eq_iff fun line => titledRow_below]
    exact forall₂_congr fun line _ => readRow_titled_iff
  · intro _ untitled ws user tape store sound ids
    rw [import_names sound ids, taken_reached]
    simp only [lastName_lines untitled]

namespace Example

/-- A workspace with a contact that has a name. -/
def store : Store :=
  holding Imports.Example.store [⟨"c", "w", some "Ann", "628", [], false, none, 0⟩]

/-- A file with the three titles, out of order. -/
def complete : String := "tags,name,phone\nvip,Bob,628"

/-- A file without names. -/
def nameless : String := "phone,tags\n628,vip"

/-- The lower case of a title. -/
def header (line : String) : List String :=
  (splitRow line.toList).map WaAutomation.Example.helpers.lower

theorem sound : Sound (store.db .contacts) where
  ids := List.nodup_singleton _
  phones := List.nodup_singleton _
  held := List.forall_mem_singleton.mpr ⟨by decide, rfl⟩

theorem ids : Fresh Imports.Example.tape (store.db .contacts) where
  new call member := by
    have same : String.ofList (List.replicate call 'i') = "c" := List.mem_singleton.mp member
    have marks : List.replicate call 'i' = ['c'] :=
      String.toList_ofList.symm.trans (congrArg String.toList same)
    exact absurd (List.eq_of_mem_replicate (marks ▸ List.mem_singleton_self 'c')) (by decide)
  distinct := Imports.Example.ids.distinct

end Example

/-- With all three titles a file is read by them; without names it is not, and its import changes a
name. -/
theorem columns_mixed_example :
    parseCsvContacts WaAutomation.Example.helpers Example.complete =
        ["vip,Bob,628".toList].filterMap (titledRow (Example.header "tags,name,phone")) ∧
      parseCsvContacts WaAutomation.Example.helpers Example.nameless ≠
        ["628,vip".toList].filterMap (titledRow (Example.header "phone,tags")) ∧
      ¬NamesKept (Example.store.db .contacts) (((importMany (some "w") "u"
        (parseCsvContacts WaAutomation.Example.helpers Example.nameless)).run exec
          Imports.Example.tape Example.store).2.2.db .contacts) := by
  obtain ⟨titles, _⟩ := @columns_mixed WaAutomation.Example.helpers Example.complete
    "tags,name,phone".toList ["vip,Bob,628".toList] (by decide +kernel) (by decide +kernel)
  obtain ⟨titles', names⟩ := @columns_mixed WaAutomation.Example.helpers Example.nameless
    "phone,tags".toList ["628,vip".toList] (by decide +kernel) (by decide +kernel)
  refine ⟨titles.mpr (by decide +kernel), mt titles'.mp (by decide +kernel), ?_⟩
  refine mt (names (by decide +kernel) (by decide +kernel) "w" "u" Imports.Example.tape
    Example.store Example.sound Example.ids).mp fun kept => ?_
  have last := kept ⟨rfl, Imports.Example.member⟩ _ (List.mem_singleton_self _) rfl "628"
    (by decide +kernel)
  exact absurd last (by decide +kernel)

/-- **A phone in the place of a name**: the first column is the phone's, and the import writes it
over the name of the contact. -/
theorem phone_for_name :
    parseCsvContacts WaAutomation.Example.helpers Example.nameless =
        [⟨some "628", "628", some ["vip"]⟩] ∧
      ["628,vip".toList].filterMap (titledRow (Example.header "phone,tags")) =
        [⟨none, "628", some ["vip"]⟩] ∧
      (Example.store.db .contacts).map Contact.name = [some "Ann"] ∧
      (((importMany (some "w") "u" (parseCsvContacts WaAutomation.Example.helpers
        Example.nameless)).run exec Imports.Example.tape Example.store).2.2.db .contacts).map
          Contact.name = [some "628"] := by
  decide +kernel

end WaAutomation.Headers
