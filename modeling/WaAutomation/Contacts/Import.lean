/-
**What an import makes of the contacts.**

An import looks every row up among the contacts as the rows before it left them. All rows of one
phone together make of its contact what their last name and their last tags say, so the whole import
is one `revise` of the contacts that are stored, and one new contact for every phone that is not.

* `lastName` and `lastTags` are what the rows say of a phone, `newPhones` the phones they add;
* `revise_cons` and `Added.cons` put the first row before the others;
* `Accepts` says which rows the database takes, and `kept` is a row with its name as it keeps it;
* `importRow_run` is one row of a run alone: rejected, and then nothing is written, or taken;
* `importRows_run` is the loop, up to the first row that is rejected;
* `Imported` is the specification of an import, `import_spec` says that a run meets it, and
  `import_all_or_nothing` when an import that fails leaves the contacts alone.
-/

import WaAutomation.Model.Calls
import WaAutomation.Model.Csv
import Mathlib.Data.List.Dedup

set_option linter.unusedSectionVars false

namespace WaAutomation.Imports

open Library ContactsService

/-! ### What the rows say of a phone -/

section Given

/-- The phone of a row, normalised. -/
def phoneOf (row : CsvContactRow) : String := normalizePhone row.phone

/-- The row has a phone, and is about it. -/
def About (phone : String) (row : CsvContactRow) : Bool := phoneOf row != "" && phoneOf row == phone

/-- The name of a row that gives one. -/
def givenName (row : CsvContactRow) : Option String := orNull row.name

/-- The tags of a row that gives some. -/
def givenTags (row : CsvContactRow) : Option (List String) := row.tags.filter fun tags => tags != []

/-- The last name the rows give for a phone. -/
def lastName (phone : String) (rows : List CsvContactRow) : Option String :=
  ((rows.filter (About phone)).filterMap givenName).getLast?

/-- The last tags the rows give for a phone. -/
def lastTags (phone : String) (rows : List CsvContactRow) : Option (List String) :=
  ((rows.filter (About phone)).filterMap givenTags).getLast?

/-- The phones of the rows. -/
def phonesOf (rows : List CsvContactRow) : List String :=
  (rows.map phoneOf).filter fun phone => phone != ""

variable {phone : String} {row : CsvContactRow} {rows : List CsvContactRow}

/-- The last value of a list with one more in front. -/
theorem getLast?_filterMap_cons {α β : Type} (get : α → Option β) (first : α) (rest : List α) :
    ((first :: rest).filterMap get).getLast? = (rest.filterMap get).getLast?.or (get first) := by
  rw [List.filterMap_cons]
  cases get first with
  | none => exact (Option.or_none).symm
  | some value =>
    rw [List.getLast?_cons]
    cases (rest.filterMap get).getLast? <;> rfl

theorem about_iff : About phone row = true ↔ phoneOf row ≠ "" ∧ phoneOf row = phone := by
  rw [About, Bool.and_eq_true, bne_iff_ne, beq_iff_eq]

theorem lastName_cons (about : About phone row = true) :
    lastName phone (row :: rows) = (lastName phone rows).or (givenName row) := by
  unfold lastName
  rw [List.filter_cons_of_pos about, getLast?_filterMap_cons]

theorem lastTags_cons (about : About phone row = true) :
    lastTags phone (row :: rows) = (lastTags phone rows).or (givenTags row) := by
  unfold lastTags
  rw [List.filter_cons_of_pos about, getLast?_filterMap_cons]

theorem lastName_other (other : ¬About phone row = true) :
    lastName phone (row :: rows) = lastName phone rows := by
  unfold lastName
  rw [List.filter_cons_of_neg other]

theorem lastTags_other (other : ¬About phone row = true) :
    lastTags phone (row :: rows) = lastTags phone rows := by
  unfold lastTags
  rw [List.filter_cons_of_neg other]

end Given

/-! ### Stored contacts -/

section Stored

variable (ws : Uuid)

/-- The contact of a workspace and a phone. -/
def isAt (phone : String) (contact : Contact) : Bool :=
  contact.workspaceId == ws && contact.phone == phone

theorem isAt_iff {phone : String} {contact : Contact} :
    isAt ws phone contact = true ↔ contact.workspaceId = ws ∧ contact.phone = phone := by
  simp [isAt]

/-- A contact with what the rows say of its phone. -/
def revised (rows : List CsvContactRow) (contact : Contact) : Contact :=
  { contact with
    name := (lastName contact.phone rows).or contact.name
    tags := (lastTags contact.phone rows).getD contact.tags }

/-- The contacts of the workspace with what the rows say, the others as they are. -/
def revise (rows : List CsvContactRow) (contact : Contact) : Contact :=
  if contact.workspaceId = ws then revised rows contact else contact

variable {ws} {row : CsvContactRow} {rows : List CsvContactRow} {contact : Contact}

theorem revise_here (here : contact.workspaceId = ws) :
    revise ws rows contact = revised rows contact :=
  if_pos here

theorem revise_key : (revise ws rows contact).id = contact.id ∧
    (revise ws rows contact).workspaceId = contact.workspaceId ∧
    (revise ws rows contact).phone = contact.phone := by
  unfold revise
  split <;> exact ⟨rfl, rfl, rfl⟩

/-- Nothing said is nothing done. -/
theorem revised_silent (name : lastName contact.phone rows = none)
    (tags : lastTags contact.phone rows = none) : revised rows contact = contact := by
  unfold revised
  rw [name, tags]
  rfl

theorem revise_nil : revise ws [] contact = contact := by
  unfold revise
  split
  · exact revised_silent rfl rfl
  · rfl

/-- The merge of a row is the revision by that row. -/
theorem merge_revised (about : About contact.phone row = true) :
    merge contact row = revised [row] contact := by
  have name : lastName contact.phone [row] = givenName row := lastName_cons about
  have tags : lastTags contact.phone [row] = givenTags row := lastTags_cons about
  unfold merge revised
  rw [name, tags, givenTags]
  cases row.tags with
  | none => rfl
  | some tags => cases tags <;> rfl

/-- **The first row, then the others**: what the others say goes before what the first one says. -/
theorem revised_cons : revised rows (revised [row] contact) = revised (row :: rows) contact := by
  by_cases about : About contact.phone row = true
  · have name : lastName contact.phone [row] = givenName row := lastName_cons about
    have tags : lastTags contact.phone [row] = givenTags row := lastTags_cons about
    unfold revised
    dsimp only
    rw [name, tags, lastName_cons about, lastTags_cons about, Option.or_assoc]
    congr 1
    cases lastTags contact.phone rows <;> rfl
  · have silent : revised [row] contact = contact :=
      revised_silent (lastName_other about) (lastTags_other about)
    rw [silent]
    unfold revised
    rw [lastName_other about, lastTags_other about]

theorem revise_cons : revise ws rows (revise ws [row] contact) =
    revise ws (row :: rows) contact := by
  by_cases here : contact.workspaceId = ws
  · have inner : revise ws [row] contact = revised [row] contact := revise_here here
    have outer : (revised [row] contact).workspaceId = ws := here
    rw [inner, revise_here here, revise_here outer, revised_cons]
  · unfold revise
    rw [if_neg here, if_neg here, if_neg here]

/-- Nothing is done to the contacts of other phones. -/
theorem revise_other (other : contact.workspaceId = ws → ¬About contact.phone row = true) :
    revise ws [row] contact = contact := by
  by_cases here : contact.workspaceId = ws
  · have silent := other here
    exact (revise_here here).trans (revised_silent (lastName_other silent) (lastTags_other silent))
  · exact if_neg here

end Stored

/-! ### New contacts -/

section New

/-- The phones of the rows that are not known, in the order of their first rows. -/
def newPhones : (known : List String) → List CsvContactRow → List String
  | _, [] => []
  | known, row :: rows =>
      if phoneOf row = "" ∨ phoneOf row ∈ known then newPhones known rows
      else phoneOf row :: newPhones (known ++ [phoneOf row]) rows

theorem mem_newPhones {phone : String} {rows : List CsvContactRow} :
    ∀ {known : List String},
      phone ∈ newPhones known rows ↔ phone ∈ phonesOf rows ∧ phone ∉ known := by
  induction rows with
  | nil => simp [newPhones, phonesOf]
  | cons row rows ih =>
    intro known
    have phones : phone ∈ phonesOf (row :: rows) ↔
        (phone = phoneOf row ∧ phone ≠ "") ∨ phone ∈ phonesOf rows := by
      simp only [phonesOf, List.map_cons, List.mem_filter, List.mem_cons, bne_iff_ne]
      tauto
    rw [phones, newPhones]
    split
    · rename_i skipped
      rw [ih]
      constructor
      · exact fun ⟨later, unknown⟩ => ⟨.inr later, unknown⟩
      · rintro ⟨⟨rfl, given⟩ | later, unknown⟩
        · exact (skipped.elim given unknown).elim
        · exact ⟨later, unknown⟩
    · rename_i taken
      obtain ⟨given, unknown⟩ := not_or.mp taken
      rw [List.mem_cons, ih, List.mem_append, List.mem_singleton]
      by_cases same : phone = phoneOf row
      · subst same
        exact ⟨fun _ => ⟨.inl ⟨rfl, given⟩, unknown⟩, fun _ => .inl rfl⟩
      · simp only [same, false_or, false_and, or_false]

theorem newPhones_nodup {rows : List CsvContactRow} :
    ∀ {known : List String}, (newPhones known rows).Nodup := by
  induction rows with
  | nil => exact List.nodup_nil
  | cons row rows ih =>
    intro known
    rw [newPhones]
    split
    · exact ih
    · refine List.nodup_cons.mpr ⟨fun again => ?_, ih⟩
      exact (mem_newPhones.mp again).2 (List.mem_append_right _ (List.mem_singleton_self _))

variable (ws : Uuid)

/-- The phones stored in a workspace. -/
def knownPhones (contacts : List Contact) : List String :=
  (contacts.filter fun contact => contact.workspaceId == ws).map Contact.phone

/-- The new contact of a row. -/
def fresh (row : CsvContactRow) (input : Input) : Contact :=
  ⟨input.ids 0, ws, orNull row.name, phoneOf row, row.tags.getD [], false, none, input.now⟩

/-- The contacts rows add to those with the known phones. -/
structure Added (known : List String) (rows : List CsvContactRow) (added : List Contact) :
    Prop where
  phones : added.map Contact.phone = newPhones known rows
  each : ∀ contact ∈ added, contact.workspaceId = ws ∧ contact.name = lastName contact.phone rows ∧
    contact.tags = (lastTags contact.phone rows).getD [] ∧ contact.isBlacklisted = false ∧
    contact.notes = none

variable {ws} {known : List String} {row : CsvContactRow} {rows : List CsvContactRow}
  {added : List Contact}

/-- A row of a known phone, or without one, adds nothing. -/
theorem Added.skip (later : Added ws known rows added)
    (skipped : phoneOf row = "" ∨ phoneOf row ∈ known) : Added ws known (row :: rows) added where
  phones := by rw [newPhones, if_pos skipped, later.phones]
  each := by
    intro contact member
    have new : contact.phone ∈ newPhones known rows := later.phones ▸ List.mem_map_of_mem member
    have other : ¬About contact.phone row = true := by
      intro about
      obtain ⟨given, same⟩ := about_iff.mp about
      exact skipped.elim given (same ▸ (mem_newPhones.mp new).2)
    rw [lastName_other other, lastTags_other other]
    exact later.each contact member

/-- The new contact of a row, with what the others say of its phone. -/
theorem revised_fresh (given : phoneOf row ≠ "") (input : Input) :
    (revise ws rows (fresh ws row input)).name = lastName (phoneOf row) (row :: rows) ∧
      (revise ws rows (fresh ws row input)).tags =
        (lastTags (phoneOf row) (row :: rows)).getD [] := by
  have here : (fresh ws row input).workspaceId = ws := rfl
  have about : About (phoneOf row) row = true := about_iff.mpr ⟨given, rfl⟩
  rw [revise_here here, lastName_cons about, lastTags_cons about]
  refine ⟨rfl, ?_⟩
  show (lastTags (phoneOf row) rows).getD (row.tags.getD []) = _
  cases lastTags (phoneOf row) rows with
  | some tags => rfl
  | none =>
    rw [Option.none_or, givenTags]
    cases row.tags with
    | none => rfl
    | some tags => cases tags <;> rfl

/-- **A row of a new phone adds its contact**, with what the others say of it. -/
theorem Added.cons (later : Added ws (known ++ [phoneOf row]) rows added)
    (given : phoneOf row ≠ "") (unknown : phoneOf row ∉ known) (input : Input) :
    Added ws known (row :: rows) (revise ws rows (fresh ws row input) :: added) where
  phones := by
    rw [newPhones, if_neg (not_or.mpr ⟨given, unknown⟩), List.map_cons, later.phones,
      revise_key.2.2]
    rfl
  each := by
    refine List.forall_mem_cons.mpr ⟨?_, fun contact member => ?_⟩
    · rw [revise_key.2.2, revise_key.2.1]
      have here : (fresh ws row input).workspaceId = ws := rfl
      refine ⟨rfl, (revised_fresh given input).1, (revised_fresh given input).2, ?_⟩
      rw [revise_here here]
      exact ⟨rfl, rfl⟩
    · have new : contact.phone ∈ newPhones (known ++ [phoneOf row]) rows :=
        later.phones ▸ List.mem_map_of_mem member
      have other : ¬About contact.phone row = true := fun about =>
        (mem_newPhones.mp new).2
          ((about_iff.mp about).2 ▸ List.mem_append_right _ (List.mem_singleton_self _))
      rw [lastName_other other, lastTags_other other]
      exact later.each contact member

end New

/-! ### Contacts that are sound -/

/-- What the database enforces on a contact: its values are accepted, and none is longer than its
column. -/
structure Held (contact : Contact) : Prop where
  fits : Row.fits .contacts contact = true
  whole : Row.held .contacts contact = contact

/-- What the database enforces on the contacts. -/
structure Sound (contacts : List Contact) : Prop where
  ids : (contacts.map (Row.key .contacts)).Nodup
  phones : (contacts.map fun contact => (contact.workspaceId, contact.phone)).Nodup
  held : ∀ contact ∈ contacts, Held contact

/-- A contact is held as the database keeps it. -/
theorem held_kept {contact : Contact} (fits : Row.fits .contacts contact = true) :
    Held (Row.held .contacts contact) where
  fits := by
    simp only [Row.fits, Row.held, Bool.and_eq_true] at fits ⊢
    refine ⟨⟨⟨?_, fits.1.1.2⟩, fits.1.2⟩, fits.2⟩
    cases named : contact.name with
    | none => rfl
    | some name => exact varchar_cut (named ▸ fits.1.1.1 : varchar? 100 (some name) = true)
  whole := by
    show { contact with name := (contact.name.map (cut 100)).map (cut 100) } =
      { contact with name := contact.name.map (cut 100) }
    rw [Option.map_map]
    congr 2
    exact funext fun _ => cut_cut

/-- The row with its name as the database keeps it. -/
def kept (row : CsvContactRow) : CsvContactRow := { row with name := row.name.map (cut 100) }

/-- The database accepts the values of a row. -/
def Storable (row : CsvContactRow) : Prop :=
  varchar? 100 (givenName row) = true ∧ varchar 20 (phoneOf row) = true ∧
    (row.tags.getD []).all text = true

/-- The values of a row fit their columns: they are accepted, and the name is no longer than its
column. -/
def Fits (row : CsvContactRow) : Prop :=
  Storable row ∧ ∀ name ∈ givenName row, name.length ≤ 100

instance (row : CsvContactRow) : Decidable (Storable row) :=
  inferInstanceAs (Decidable (_ = true ∧ _ = true ∧ _ = true))

instance (row : CsvContactRow) : Decidable (Fits row) :=
  inferInstanceAs (Decidable (Storable row ∧ _))

section Sound

variable {ws : Uuid} {contacts : List Contact} {old : Contact} {row : CsvContactRow}

/-- The contact of a phone is the only one. -/
theorem Sound.only (sound : Sound contacts) (stored : old ∈ contacts)
    (here : isAt ws old.phone old = true) {other : Contact} (member : other ∈ contacts)
    (there : isAt ws old.phone other = true) : other = old := by
  refine Rows.unique sound.phones member stored ?_
  rw [((isAt_iff ws).mp there).1, ((isAt_iff ws).mp there).2, ((isAt_iff ws).mp here).1]

theorem mem_knownPhones {phone : String} :
    phone ∈ knownPhones ws contacts ↔ ∃ old ∈ contacts, isAt ws phone old = true := by
  simp only [knownPhones, List.mem_map, List.mem_filter, beq_iff_eq, isAt_iff, and_assoc]

/-- **The merge of a row, written over its contact, revises the contacts.** -/
theorem put_merge (sound : Sound contacts) (stored : old ∈ contacts)
    (here : isAt ws (phoneOf row) old = true) (given : phoneOf row ≠ "") :
    Rows.put (Row.key .contacts) (merge old row) contacts = contacts.map (revise ws [row]) := by
  obtain ⟨own, phone⟩ := (isAt_iff ws).mp here
  refine List.map_congr_left fun other member => ?_
  split
  · rename_i same
    obtain rfl : other = old := Rows.unique sound.ids member stored same
    rw [revise_here own, merge_revised (about_iff.mpr ⟨given, phone.symm⟩)]
  · rename_i different
    refine (revise_other fun there about => different ?_).symm
    have same := sound.only stored (phone ▸ here) member
      ((isAt_iff ws).mpr ⟨there, (about_iff.mp about).2.symm.trans phone.symm⟩)
    rw [same]
    rfl

theorem givenName_kept : givenName (kept row) = (givenName row).map (cut 100) := by
  show orNull (row.name.map (cut 100)) = (orNull row.name).map (cut 100)
  cases row.name with
  | none => rfl
  | some name =>
    by_cases empty : name = ""
    · subst empty
      rfl
    · have some_left : cut 100 name ≠ "" := mt (cut_iff (by decide)).mp empty
      simp [orNull, Option.filter, empty, some_left]

/-- Nothing is cut off a name that is no longer than its column. -/
theorem kept_short (short : ∀ name ∈ givenName row, name.length ≤ 100) : kept row = row := by
  have same : row.name.map (cut 100) = row.name := by
    cases named : row.name with
    | none => rfl
    | some name =>
      refine congrArg some (cut_short ?_)
      by_cases empty : name = ""
      · subst empty
        exact Nat.zero_le 100
      · exact short name (by simp [givenName, orNull, named, empty])
  unfold kept
  rw [same]

theorem held_fresh (input : Input) :
    Row.held .contacts (fresh ws row input) = fresh ws (kept row) input :=
  congrArg (fun name => { fresh ws row input with name := name }) givenName_kept.symm

theorem held_merge (held : Held old) :
    Row.held .contacts (merge old row) = merge old (kept row) := by
  have name : ((givenName row).or old.name).map (cut 100) =
      (givenName (kept row)).or old.name := by
    rw [givenName_kept, ← congrArg Contact.name held.whole]
    cases givenName row with
    | none => exact congrArg Contact.name (congrArg (Row.held .contacts) held.whole)
    | some name => rfl
  exact congrArg (fun name => { merge old row with name := name }) name

theorem storable_fresh (input : Input) :
    Row.fits .contacts (fresh ws row input) = true ↔ Storable row := by
  have fresh_fits : Row.fits .contacts (fresh ws row input) = (varchar? 100 (givenName row) &&
      varchar 20 (phoneOf row) && (row.tags.getD []).all text && true) := rfl
  rw [fresh_fits, Bool.and_true, Bool.and_eq_true, Bool.and_eq_true, and_assoc, Storable]

theorem storable_merge (held : Held old) (phone : old.phone = phoneOf row) :
    Row.fits .contacts (merge old row) = true ↔ Storable row := by
  have fits := held.fits
  simp only [Row.fits, Bool.and_eq_true] at fits
  obtain ⟨⟨⟨named, numbered⟩, tagged⟩, noted⟩ := fits
  have name : varchar? 100 ((givenName row).or old.name) = true ↔
      varchar? 100 (givenName row) = true := by
    cases givenName row with
    | none => exact iff_of_true named rfl
    | some name => rfl
  have tags : (merge old row).tags.all text = true ↔ (row.tags.getD []).all text = true := by
    unfold merge
    cases row.tags with
    | none => exact iff_of_true tagged rfl
    | some tags =>
      cases tags with
      | nil => exact iff_of_true tagged rfl
      | cons tag tags => rfl
  have merged : Row.fits .contacts (merge old row) = (varchar? 100 ((givenName row).or old.name) &&
      varchar 20 old.phone && (merge old row).tags.all text && text? old.notes) := rfl
  rw [merged, noted, Bool.and_true, Bool.and_eq_true, Bool.and_eq_true, name, tags, phone,
    and_assoc, Storable]

theorem Sound.put (sound : Sound contacts) (stored : old ∈ contacts)
    (here : isAt ws (phoneOf row) old = true) (given : phoneOf row ≠ "")
    (storable : Storable row) : Sound (contacts.map (revise ws [kept row])) where
  ids := by
    rw [← @put_merge ws _ _ (kept row) sound stored here given, Rows.keys_put]
    exact sound.ids
  phones := by
    rw [List.map_map, List.map_congr_left fun contact _ => ?_]
    · exact sound.phones
    · exact congrArg₂ Prod.mk revise_key.2.1 revise_key.2.2
  held := by
    rw [← @put_merge ws _ _ (kept row) sound stored here given]
    intro contact member
    obtain ⟨left, _⟩ | ⟨rfl, _⟩ := Rows.mem_put.mp member
    · exact sound.held contact left
    · rw [← held_merge (sound.held old stored)]
      exact held_kept
        ((storable_merge (sound.held old stored) ((isAt_iff ws).mp here).2).mpr storable)

/-- A contact with a new id and a new phone. -/
theorem Sound.add (sound : Sound contacts) {contact : Contact}
    (new : ∀ other ∈ contacts, other.id ≠ contact.id)
    (apart : ∀ other ∈ contacts, Row.clash .contacts other contact = false)
    (held : Held contact) : Sound (contacts ++ [contact]) where
  ids := by
    rw [List.map_append, List.nodup_append]
    refine ⟨sound.ids, List.nodup_singleton _, ?_⟩
    rintro _ left _ right rfl
    obtain ⟨other, member, same⟩ := List.mem_map.mp left
    rw [List.map_singleton, List.mem_singleton] at right
    exact new other member (congrArg Prod.fst (same.trans right))
  phones := by
    rw [List.map_append, List.nodup_append]
    refine ⟨sound.phones, List.nodup_singleton _, ?_⟩
    rintro _ left _ right rfl
    obtain ⟨other, member, same⟩ := List.mem_map.mp left
    rw [List.map_singleton, List.mem_singleton] at right
    have clash : Row.clash .contacts other contact = true :=
      (isAt_iff _).mpr (Prod.mk.inj (same.trans right))
    rw [apart other member] at clash
    cases clash
  held := List.forall_mem_append.mpr ⟨sound.held, List.forall_mem_singleton.mpr held⟩

/-- A contact that the database checked, written over the one with its id. -/
theorem Sound.over {db : Db} (sound : Sound (db .contacts)) {contact : Contact}
    (checked : db.check .contacts contact = .ok ()) :
    Sound (Rows.put (Row.key .contacts) (Row.held .contacts contact) (db .contacts)) where
  ids := by
    rw [Rows.keys_put]
    exact sound.ids
  phones := by
    have keys := sound.ids
    rw [← Rows.keys_put (Row.held .contacts contact)] at keys
    -- another contact with this phone would have failed the check
    have apart (other : Contact) (member : other ∈ db .contacts)
        (different : Row.key .contacts other ≠ Row.key .contacts contact) :
        (other.workspaceId, other.phone) ≠ (contact.workspaceId, contact.phone) := by
      intro same
      have clash : Row.clash .contacts other contact = true := (isAt_iff _).mpr (Prod.mk.inj same)
      rw [Db.check_apart checked member (decide_eq_false different)] at clash
      cases clash
    refine (List.Nodup.of_map _ keys).map_on fun first left second right same => ?_
    obtain ⟨old, different⟩ | ⟨rfl, _⟩ := Rows.mem_put.mp left
    · obtain ⟨old', _⟩ | ⟨rfl, _⟩ := Rows.mem_put.mp right
      · exact Rows.unique sound.phones old old' same
      · exact absurd same (apart first old different)
    · obtain ⟨old', different⟩ | ⟨rfl, _⟩ := Rows.mem_put.mp right
      · exact absurd same.symm (apart second old' different)
      · rfl
  held := by
    intro other member
    obtain ⟨old, _⟩ | ⟨rfl, _⟩ := Rows.mem_put.mp member
    · exact sound.held other old
    · exact held_kept (Db.check_ok checked).1

theorem Sound.push (sound : Sound contacts) (unknown : phoneOf row ∉ knownPhones ws contacts)
    (storable : Storable row) {input : Input} (new : input.ids 0 ∉ contacts.map Contact.id) :
    Sound (contacts ++ [fresh ws (kept row) input]) := by
  rw [← held_fresh]
  refine sound.add (fun other member same => ?_) (fun other member => ?_)
    (held_kept ((storable_fresh input).mpr storable))
  · exact new (List.mem_map.mpr ⟨other, member, same⟩)
  · exact Bool.eq_false_iff.mpr fun clash => unknown (mem_knownPhones.mpr ⟨other, member, clash⟩)

theorem knownPhones_revise (rows : List CsvContactRow) :
    knownPhones ws (contacts.map (revise ws rows)) = knownPhones ws contacts := by
  unfold knownPhones
  rw [List.filter_map, List.map_map]
  have same : (fun contact : Contact => contact.workspaceId == ws) ∘ revise ws rows =
      fun contact => contact.workspaceId == ws := by
    funext contact
    rw [Function.comp_apply, revise_key.2.1]
  rw [same]
  exact List.map_congr_left fun contact _ => revise_key.2.2

theorem knownPhones_push (input : Input) :
    knownPhones ws (contacts ++ [fresh ws row input]) = knownPhones ws contacts ++
      [phoneOf row] := by
  unfold knownPhones
  have own : ([fresh ws row input].filter fun contact => contact.workspaceId == ws) =
      [fresh ws row input] := List.filter_eq_self.mpr (by simp [fresh])
  rw [List.filter_append, List.map_append, own]
  rfl

end Sound

/-! ### One row of a run alone -/

section Runs

variable {ws : Uuid} {store : Store} {tape : Program.Tape Input} {row : CsvContactRow}

/-- The store with other contacts. -/
def holding (store : Store) (contacts : List Contact) : Store :=
  { store with db := store.db.set .contacts contacts }

/-- The database takes a row: neither of its two calls fails, and its values are accepted. -/
def Accepts (tape : Program.Tape Input) (row : CsvContactRow) : Prop :=
  (tape.later 0).fault = none ∧ (tape.later 1).fault = none ∧ Storable row

instance (tape : Program.Tape Input) (row : CsvContactRow) : Decidable (Accepts tape row) :=
  inferInstanceAs (Decidable (_ = none ∧ _ = none ∧ Storable row))

/-- The ids to come are new and distinct. -/
structure Fresh (tape : Program.Tape Input) (contacts : List Contact) : Prop where
  new : ∀ call, (tape.later call).ids 0 ∉ contacts.map Contact.id
  distinct : Function.Injective fun call => (tape.later call).ids 0

/-- The outcome of a row. -/
inductive Outcome (ws : Uuid) (store : Store) (tape : Program.Tape Input) (reply : ImportReply)
    (row : CsvContactRow) : Except Err ImportReply × Program.Tape Input × Store → Prop
  | rejected {error : Err} {tape' : Program.Tape Input} (rejects : ¬Accepts tape row) :
      Outcome ws store tape reply row (.error error, tape', store)
  | updated (accepts : Accepts tape row)
      (known : phoneOf row ∈ knownPhones ws (store.db .contacts)) :
      Outcome ws store tape reply row (.ok { reply with updated := reply.updated + 1 },
        tape.advance.advance, holding store ((store.db .contacts).map (revise ws [kept row])))
  | created (accepts : Accepts tape row)
      (unknown : phoneOf row ∉ knownPhones ws (store.db .contacts)) :
      Outcome ws store tape reply row (.ok { reply with created := reply.created + 1 },
        tape.advance.advance,
        holding store (store.db .contacts ++ [fresh ws (kept row) (tape.later 1)]))

/-- A row of a known phone is merged into its contact. -/
theorem importRow_known (sound : Sound (store.db .contacts)) {old : Contact}
    (stored : old ∈ store.db .contacts) (here : isAt ws (phoneOf row) old = true)
    (given : phoneOf row ≠ "") {input : Input} (clear : input.fault = none) :
    exec (.save .contacts (.whole (merge old row))) input store =
      if Storable row then
        (.ok (), holding store ((store.db .contacts).map (revise ws [kept row])))
      else (.error checkViolation, store) := by
  obtain ⟨own, phone⟩ := (isAt_iff ws).mp here
  have fits := storable_merge (sound.held old stored) phone
  -- the contact looked up is still the one stored under its id
  have found : (store.db .contacts).find? (Db.sameKey (merge old row)) = some old := by
    have same : @Db.sameKey .contacts (merge old row) old = true := decide_eq_true rfl
    obtain ⟨other, there⟩ := Option.isSome_iff_exists.mp (List.find?_isSome.mpr ⟨old, stored, same⟩)
    have agrees : @Db.sameKey .contacts (merge old row) other = true := List.find?_some there
    have key : Row.key .contacts (merge old row) = Row.key .contacts other :=
      of_decide_eq_true agrees
    rw [there, Rows.unique sound.ids (List.mem_of_find?_eq_some there) stored key.symm]
  have apart : ((store.db .contacts).any fun other =>
      !Db.sameKey other (merge old row) && Row.clash .contacts other (merge old row)) = false := by
    rw [List.any_eq_false]
    intro other member
    rw [Bool.and_eq_true, Bool.not_eq_true']
    rintro ⟨different, clash⟩
    obtain ⟨there, number⟩ := (isAt_iff _).mp clash
    obtain rfl : other = old := sound.only stored (phone ▸ here) member
      ((isAt_iff ws).mpr ⟨there.trans own, number⟩)
    exact of_decide_eq_false different rfl
  rw [exec_clear _ clear]
  simp only [perform, Store.save, found, Entity.whole, Db.replace, Db.check, apart]
  by_cases fit : Storable row
  · rw [if_pos fit, fits.mpr fit]
    simp only [Bool.not_true, Bool.false_eq_true, if_false, Db.parents, Store.commit, Db.put,
      held_merge (sound.held old stored), @put_merge ws _ _ (kept row) sound stored here given]
    rfl
  · rw [if_neg fit, Bool.eq_false_iff.mpr (mt fits.mp fit)]
    rfl

/-- A row of a new phone makes a new contact. -/
theorem importRow_new {input : Input} (clear : input.fault = none)
    (new : input.ids 0 ∉ (store.db .contacts).map Contact.id)
    (unknown : phoneOf row ∉ knownPhones ws (store.db .contacts)) :
    exec (.insert .contacts (some (fresh ws row))) input store =
      if Storable row then
        (.ok (fresh ws row input),
          holding store (store.db .contacts ++ [fresh ws (kept row) input]))
      else (.error checkViolation, store) := by
  have free : (store.db .contacts).any (Db.sameKey (fresh ws row input)) = false := by
    rw [List.any_eq_false]
    intro contact member same
    have key : (fresh ws row input).id = contact.id := congrArg Prod.fst (of_decide_eq_true same)
    exact new (List.mem_map.mpr ⟨contact, member, key.symm⟩)
  have apart : ∀ other ∈ store.db .contacts,
      Row.clash .contacts other (fresh ws row input) = false := by
    intro other member
    refine Bool.eq_false_iff.mpr fun clash => unknown (mem_knownPhones.mpr ⟨other, member, clash⟩)
  have fits : Row.fits .contacts (fresh ws row input) = true ↔ Storable row := storable_fresh input
  rw [exec_clear _ clear]
  simp only [perform, Store.insert]
  by_cases fit : Storable row
  · rw [if_pos fit, Db.insert_fits free (fits.mpr fit) rfl apart, held_fresh]
    rfl
  · have unfit : Row.fits .contacts (fresh ws row input) = false :=
      Bool.eq_false_iff.mpr (mt fits.mp fit)
    rw [if_neg fit]
    simp only [Db.insert, free, Db.check, unfit, Bool.not_false, if_true, Bool.false_eq_true,
      if_false]

/-- A row with a phone looks it up, and then writes once. -/
theorem importRow_eq (given : phoneOf row ≠ "") (reply : ImportReply) :
    importRow (some ws) reply row =
      Svc.findOne .contacts (isAt ws (phoneOf row)) >>= fun existing =>
        existing.elim
          (Svc.call (.insert .contacts (some (fresh ws row))) >>= fun _ =>
            pure { reply with created := reply.created + 1 })
          fun old => Svc.call (.save .contacts (.whole (merge old row))) >>= fun _ =>
            pure { reply with updated := reply.updated + 1 } := by
  have given' : normalizePhone row.phone ≠ "" := given
  unfold importRow
  dsimp only
  rw [if_neg given']
  congr 1
  funext existing
  cases existing <;> rfl

/-- **One row of an import**: it is rejected and nothing is written, or its contact is updated, or
created. -/
theorem importRow_run (sound : Sound (store.db .contacts)) (ids : Fresh tape (store.db .contacts))
    (given : phoneOf row ≠ "") (reply : ImportReply) :
    Outcome ws store tape reply row
      ((importRow (some ws) reply row).run exec tape store) := by
  rw [importRow_eq given, Program.run_bind]
  cases first : (tape.later 0).fault with
  | some message =>
    rw [findOne_fails first]
    exact .rejected fun accepts => by rw [accepts.1] at first; cases first
  | none =>
    rw [findOne_clear first]
    dsimp only
    cases found : (store.db .contacts).find? (isAt ws (phoneOf row)) with
    | some old =>
      have stored := List.mem_of_find?_eq_some found
      have here := List.find?_some found
      rw [Option.elim_some, call_return]
      show Outcome ws store tape reply row
        ((exec (.save .contacts (.whole (merge old row))) (tape.later 1) store).1.map _, _,
          (exec (.save .contacts (.whole (merge old row))) (tape.later 1) store).2)
      cases second : (tape.later 1).fault with
      | some message =>
        rw [exec_faulty rfl second]
        exact .rejected fun accepts => by rw [accepts.2.1] at second; cases second
      | none =>
        rw [importRow_known sound stored here given second]
        by_cases fits : Storable row
        · rw [if_pos fits]
          exact .updated ⟨first, second, fits⟩ (mem_knownPhones.mpr ⟨old, stored, here⟩)
        · rw [if_neg fits]
          exact .rejected fun accepts => fits accepts.2.2
    | none =>
      have unknown : phoneOf row ∉ knownPhones ws (store.db .contacts) := fun known => by
        obtain ⟨old, stored, here⟩ := mem_knownPhones.mp known
        exact List.find?_eq_none.mp found old stored here
      rw [Option.elim_none, call_return]
      show Outcome ws store tape reply row
        ((exec (.insert .contacts (some (fresh ws row))) (tape.later 1) store).1.map _, _,
          (exec (.insert .contacts (some (fresh ws row))) (tape.later 1) store).2)
      cases second : (tape.later 1).fault with
      | some message =>
        rw [exec_faulty rfl second]
        exact .rejected fun accepts => by rw [accepts.2.1] at second; cases second
      | none =>
        rw [importRow_new second (ids.new 1) unknown]
        by_cases fits : Storable row
        · rw [if_pos fits]
          exact .created ⟨first, second, fits⟩ unknown
        · rw [if_neg fits]
          exact .rejected fun accepts => fits accepts.2.2

end Runs

/-! ### The loop -/

section Loop

variable {ws : Uuid}

/-- The rows an import takes: all before the first one the database rejects. -/
def taken : Program.Tape Input → List CsvContactRow → List CsvContactRow
  | _, [] => []
  | tape, row :: rows =>
      if phoneOf row = "" then row :: taken tape rows
      else if Accepts tape row then row :: taken tape.advance.advance rows
      else []

/-- The rows an import takes, as the database keeps them. -/
abbrev written (tape : Program.Tape Input) (rows : List CsvContactRow) : List CsvContactRow :=
  (taken tape rows).map kept

/-- The row has no digit. -/
def digitless (row : CsvContactRow) : Bool := phoneOf row == ""

theorem Fresh.advance {tape : Program.Tape Input} {contacts : List Contact}
    (ids : Fresh tape contacts) : Fresh tape.advance contacts where
  new call := ids.new (call + 1)
  distinct _ _ same := Nat.succ_injective (ids.distinct same)

theorem Fresh.revise {tape : Program.Tape Input} {contacts : List Contact}
    (ids : Fresh tape contacts) (rows : List CsvContactRow) :
    Fresh tape (contacts.map (Imports.revise ws rows)) where
  new call := by
    have same : (contacts.map (Imports.revise ws rows)).map Contact.id =
        contacts.map Contact.id := by
      rw [List.map_map]
      exact List.map_congr_left fun _ _ => revise_key.1
    rw [same]
    exact ids.new call
  distinct := ids.distinct

theorem Fresh.push {tape : Program.Tape Input} {contacts : List Contact}
    (ids : Fresh tape contacts) (row : CsvContactRow) :
    Fresh tape.advance.advance (contacts ++ [fresh ws (kept row) (tape.later 1)]) where
  new call := by
    rw [List.map_append, List.mem_append, not_or]
    refine ⟨ids.advance.advance.new call, fun last => ?_⟩
    have same : (tape.later (call + 1 + 1)).ids 0 = (tape.later 1).ids 0 :=
      List.mem_singleton.mp last
    exact absurd (ids.distinct same) (by omega)
  distinct := ids.advance.advance.distinct

theorem holding_same (store : Store) : holding store (store.db .contacts) = store :=
  congrArg (fun db => { store with db := db }) (Function.update_eq_self _ _)

theorem holding_holding (store : Store) (first second : List Contact) :
    holding (holding store first) second = holding store second :=
  congrArg (fun db => { store with db := db }) (Function.update_idem _ _ _)

theorem holding_contacts (store : Store) (contacts : List Contact) :
    (holding store contacts).db .contacts = contacts :=
  Db.set_same store.db .contacts contacts

/-- Nothing is done to contacts of other phones by a row, also before others. -/
theorem revise_skip {contact : Contact} {row : CsvContactRow} {rows : List CsvContactRow}
    (other : contact.workspaceId = ws → ¬About contact.phone row = true) :
    revise ws (row :: rows) contact = revise ws rows contact := by
  rw [← revise_cons, revise_other other]

/-- The contacts an import leaves, with what it adds. -/
def after (ws : Uuid) (rows : List CsvContactRow) (contacts added : List Contact) : List Contact :=
  contacts.map (revise ws rows) ++ added

theorem after_nil (contacts : List Contact) : after ws [] contacts [] = contacts := by
  rw [after, List.append_nil, List.map_congr_left fun _ _ => revise_nil, List.map_id']

/-- What a run of the loop on the contacts returns and adds. -/
structure LoopRun (ws : Uuid) (tape : Program.Tape Input) (contacts : List Contact)
    (reply : ImportReply) (rows : List CsvContactRow) (result : Except Err ImportReply)
    (added : List Contact) : Prop where
  adds : Added ws (knownPhones ws contacts) (written tape rows) added
  sound : Sound (after ws (written tape rows) contacts added)
  whole : taken tape rows = rows →
    ∃ updated, updated + added.length + rows.countP digitless = rows.length ∧
      result = .ok ⟨reply.created + added.length, reply.updated + updated,
        reply.skipped + rows.countP digitless, reply.total⟩
  broken : taken tape rows ≠ rows → ∃ error, result = .error error

section Steps

variable {tape : Program.Tape Input} {contacts added : List Contact} {reply : ImportReply}
  {row : CsvContactRow} {rows : List CsvContactRow} {result : Except Err ImportReply}

theorem taken_digitless (given : phoneOf row = "") :
    taken tape (row :: rows) = row :: taken tape rows := by
  rw [taken, if_pos given]

theorem taken_accepts (given : phoneOf row ≠ "") (accepts : Accepts tape row) :
    taken tape (row :: rows) = row :: taken tape.advance.advance rows := by
  rw [taken, if_neg given, if_pos accepts]

theorem taken_rejects (given : phoneOf row ≠ "") (rejects : ¬Accepts tape row) :
    taken tape (row :: rows) = [] := by
  rw [taken, if_neg given, if_neg rejects]

theorem written_digitless (given : phoneOf row = "") :
    written tape (row :: rows) = kept row :: written tape rows :=
  congrArg (List.map kept) (taken_digitless given)

theorem written_accepts (given : phoneOf row ≠ "") (accepts : Accepts tape row) :
    written tape (row :: rows) = kept row :: written tape.advance.advance rows :=
  congrArg (List.map kept) (taken_accepts given accepts)

theorem written_rejects (given : phoneOf row ≠ "") (rejects : ¬Accepts tape row) :
    written tape (row :: rows) = [] :=
  congrArg (List.map kept) (taken_rejects given rejects)

theorem after_digitless (given : phoneOf row = "") :
    after ws (row :: rows) contacts added = after ws rows contacts added := by
  unfold after
  rw [List.map_congr_left fun contact _ => revise_skip fun _ about => (about_iff.mp about).1 given]

theorem after_updated :
    after ws rows (contacts.map (revise ws [row])) added = after ws (row :: rows)
      contacts added := by
  unfold after
  rw [List.map_map]
  congr 1
  exact List.map_congr_left fun contact _ => revise_cons

theorem after_created (unknown : phoneOf row ∉ knownPhones ws contacts) (input : Input) :
    after ws rows (contacts ++ [fresh ws row input]) added =
      after ws (row :: rows) contacts (revise ws rows (fresh ws row input) :: added) := by
  unfold after
  rw [List.map_append, List.append_assoc]
  congr 1
  refine List.map_congr_left fun contact member => (revise_skip fun here about => unknown ?_).symm
  exact mem_knownPhones.mpr ⟨contact, member, (isAt_iff ws).mpr ⟨here, (about_iff.mp about).2.symm⟩⟩

/-- A row without a digit is counted, and nothing else. -/
theorem LoopRun.skip (later : LoopRun ws tape contacts
    { reply with skipped := reply.skipped + 1 } rows result added) (given : phoneOf row = "") :
    LoopRun ws tape contacts reply (row :: rows) result added where
  adds := by
    rw [written_digitless given]
    exact later.adds.skip (.inl given)
  sound := by
    rw [written_digitless given, after_digitless (show phoneOf (kept row) = "" from given)]
    exact later.sound
  whole all := by
    rw [taken_digitless given] at all
    obtain ⟨updated, counts, returns⟩ := later.whole (List.cons.inj all).2
    have skipped : (row :: rows).countP digitless = rows.countP digitless + 1 :=
      List.countP_cons_of_pos (beq_iff_eq.mpr given)
    refine ⟨updated, ?_, ?_⟩
    · rw [skipped, List.length_cons]
      omega
    · rw [returns, skipped]
      dsimp only
      congr 2
      omega
  broken some_left := by
    rw [taken_digitless given] at some_left
    exact later.broken fun all => some_left (congrArg (row :: ·) all)

/-- A row of a known phone revises the contacts first. -/
theorem LoopRun.update (later : LoopRun ws tape.advance.advance
    (contacts.map (revise ws [kept row])) { reply with updated := reply.updated + 1 } rows
    result added) (given : phoneOf row ≠ "") (accepts : Accepts tape row)
    (known : phoneOf row ∈ knownPhones ws contacts) :
    LoopRun ws tape contacts reply (row :: rows) result added where
  adds := by
    have kept := later.adds
    rw [knownPhones_revise] at kept
    rw [written_accepts given accepts]
    exact kept.skip (.inr known)
  sound := by
    rw [written_accepts given accepts, ← after_updated]
    exact later.sound
  whole all := by
    rw [taken_accepts given accepts] at all
    obtain ⟨updated, counts, returns⟩ := later.whole (List.cons.inj all).2
    have digits : (row :: rows).countP digitless = rows.countP digitless :=
      List.countP_cons_of_neg (mt beq_iff_eq.mp given)
    refine ⟨updated + 1, ?_, ?_⟩
    · rw [digits, List.length_cons]
      omega
    · rw [returns, digits]
      dsimp only
      congr 2
      omega
  broken some_left := by
    rw [taken_accepts given accepts] at some_left
    exact later.broken fun all => some_left (congrArg (row :: ·) all)

/-- A row of a new phone adds its contact first. -/
theorem LoopRun.create (later : LoopRun ws tape.advance.advance
    (contacts ++ [fresh ws (kept row) (tape.later 1)])
    { reply with created := reply.created + 1 } rows result added)
    (given : phoneOf row ≠ "") (accepts : Accepts tape row)
    (unknown : phoneOf row ∉ knownPhones ws contacts) :
    LoopRun ws tape contacts reply (row :: rows) result
      (revise ws (written tape.advance.advance rows) (fresh ws (kept row) (tape.later 1)) ::
        added) where
  adds := by
    have kept := later.adds
    rw [knownPhones_push] at kept
    rw [written_accepts given accepts]
    exact kept.cons given unknown _
  sound := by
    rw [written_accepts given accepts,
      ← after_created (show phoneOf (kept row) ∉ _ from unknown)]
    exact later.sound
  whole all := by
    rw [taken_accepts given accepts] at all
    obtain ⟨updated, counts, returns⟩ := later.whole (List.cons.inj all).2
    have digits : (row :: rows).countP digitless = rows.countP digitless :=
      List.countP_cons_of_neg (mt beq_iff_eq.mp given)
    refine ⟨updated, ?_, ?_⟩
    · rw [digits, List.length_cons, List.length_cons]
      omega
    · rw [returns, digits, List.length_cons]
      dsimp only
      congr 2
      omega
  broken some_left := by
    rw [taken_accepts given accepts] at some_left
    exact later.broken fun all => some_left (congrArg (row :: ·) all)

/-- A row that is rejected ends the import. -/
theorem LoopRun.reject (sound : Sound contacts) (given : phoneOf row ≠ "")
    (rejects : ¬Accepts tape row) (error : Err) :
    LoopRun ws tape contacts reply (row :: rows) (.error error) [] where
  adds := by
    rw [written_rejects given rejects]
    exact ⟨rfl, fun _ member => by cases member⟩
  sound := by
    rw [written_rejects given rejects, after_nil]
    exact sound
  whole all := by
    rw [taken_rejects given rejects] at all
    cases all
  broken _ := ⟨error, rfl⟩

end Steps

/-- A row without a digit is skipped. -/
theorem importRow_skips {reply : ImportReply} {row : CsvContactRow} {tape : Program.Tape Input}
    {store : Store} (given : phoneOf row = "") :
    (importRow (some ws) reply row).run exec tape store =
      (.ok { reply with skipped := reply.skipped + 1 }, tape, store) := by
  unfold importRow
  dsimp only
  rw [if_pos (show normalizePhone row.phone = "" from given)]
  rfl

/-- **The loop of an import**, by induction on the rows. -/
theorem importRows_run (rows : List CsvContactRow) : ∀ {tape : Program.Tape Input} {store : Store}
    (reply : ImportReply), Sound (store.db .contacts) → Fresh tape (store.db .contacts) →
      ∃ result tape' added,
        (importRows (some ws) reply rows).run exec tape store =
          (result, tape',
            holding store (after ws (written tape rows) (store.db .contacts) added)) ∧
        LoopRun ws tape (store.db .contacts) reply rows result added := by
  induction rows with
  | nil =>
    intro tape store reply sound _
    refine ⟨_, tape, [], ?_, ⟨rfl, fun _ member => (by cases member)⟩, ?_,
      fun _ => ⟨0, rfl, rfl⟩, fun wrong => absurd rfl wrong⟩
    · rw [written, taken, List.map_nil, after_nil, holding_same]
      rfl
    · rw [written, taken, List.map_nil, after_nil]
      exact sound
  | cons row rows ih =>
    intro tape store reply sound ids
    rw [importRows, Program.run_bind]
    by_cases given : phoneOf row = ""
    · obtain ⟨result, tape', added, ran, loop⟩ :=
        ih { reply with skipped := reply.skipped + 1 } sound ids
      rw [importRow_skips given]
      refine ⟨result, tape', added, ?_, loop.skip given⟩
      rw [written_digitless given, after_digitless (show phoneOf (kept row) = "" from given)]
      exact ran
    · have onward {next : Program.Tape Input} {contacts : List Contact} (reply : ImportReply)
          (sound : Sound contacts) (ids : Fresh next contacts) :
          ∃ result tape' added,
            (importRows (some ws) reply rows).run exec next (holding store contacts) =
              (result, tape', holding store (after ws (written next rows) contacts added)) ∧
            LoopRun ws next contacts reply rows result added := by
        have rest := @ih next (holding store contacts) reply
        rw [holding_contacts] at rest
        obtain ⟨result, tape', added, ran, loop⟩ := rest sound ids
        rw [holding_holding] at ran
        exact ⟨result, tape', added, ran, loop⟩
      have outcome := @importRow_run ws store tape row sound ids given reply
      generalize (importRow (some ws) reply row).run exec tape store = first at outcome ⊢
      cases outcome with
      | @rejected error tape' rejects =>
        refine ⟨.error error, tape', [], ?_, .reject sound given rejects error⟩
        rw [written_rejects given rejects, after_nil, holding_same]
      | updated accepts known =>
        obtain ⟨old, member, here⟩ := mem_knownPhones.mp known
        obtain ⟨result, tape', added, ran, loop⟩ :=
          onward { reply with updated := reply.updated + 1 }
            (sound.put member here given accepts.2.2) (ids.advance.advance.revise [kept row])
        refine ⟨result, tape', added, ?_, loop.update given accepts known⟩
        rw [written_accepts given accepts, ← after_updated]
        exact ran
      | created accepts unknown =>
        obtain ⟨result, tape', added, ran, loop⟩ :=
          onward { reply with created := reply.created + 1 }
            (sound.push unknown accepts.2.2 (ids.new 1)) (ids.push row)
        refine ⟨result, tape', _, ?_, loop.create given accepts unknown⟩
        rw [written_accepts given accepts,
          ← after_created (show phoneOf (kept row) ∉ _ from unknown)]
        exact ran

end Loop

/-! ### A whole import -/

section Whole

variable {ws : Uuid} {user : Uuid} {store : Store} {tape : Program.Tape Input}
  {rows : List CsvContactRow}

/-- The user is a member of the workspace, and the lookup does not fail. -/
def Admitted (ws user : Uuid) (tape : Program.Tape Input) (store : Store) : Prop :=
  (tape.later 0).fault = none ∧
    ∃ member ∈ store.db .members, member.workspaceId = ws ∧ member.userId = user

theorem assertMember_admitted (admitted : Admitted ws user tape store) :
    ∃ member, (WorkspacesService.assertMember (some ws) user).run exec tape store =
      (.ok member, tape.advance, store) := by
  obtain ⟨clear, member, stored, own, self⟩ := admitted
  rw [WorkspacesService.assertMember_eq, Program.run_bind, findOne_clear clear]
  have isSome := List.find?_isSome (p := fun member : WorkspaceMember =>
    member.workspaceId == ws && member.userId == user).mpr ⟨member, stored, by simp [own, self]⟩
  obtain ⟨found, there⟩ := Option.isSome_iff_exists.mp isSome
  rw [there]
  exact ⟨found, rfl⟩

theorem assertMember_refused (refused : ¬Admitted ws user tape store) :
    ∃ error tape', (WorkspacesService.assertMember (some ws) user).run exec tape store =
      (.error error, tape', store) := by
  rw [WorkspacesService.assertMember_eq, Program.run_bind]
  cases fault : (tape.later 0).fault with
  | some message =>
    rw [findOne_fails fault]
    exact ⟨_, _, rfl⟩
  | none =>
    rw [findOne_clear fault]
    dsimp only
    cases found : (store.db .members).find? fun member =>
        member.workspaceId == ws && member.userId == user with
    | none => exact ⟨_, _, rfl⟩
    | some member =>
      refine absurd ⟨fault, member, List.mem_of_find?_eq_some found, ?_⟩ refused
      simpa using List.find?_some found

/-- **A run of an import.** -/
theorem importMany_run (admitted : Admitted ws user tape store) (sound : Sound (store.db .contacts))
    (ids : Fresh tape (store.db .contacts)) (rows : List CsvContactRow) :
    ∃ result tape' added,
      (importMany (some ws) user rows).run exec tape store =
        (result, tape',
          holding store (after ws (written tape.advance rows) (store.db .contacts) added)) ∧
      LoopRun ws tape.advance (store.db .contacts) ⟨0, 0, 0, rows.length⟩ rows result added := by
  obtain ⟨member, allowed⟩ := assertMember_admitted admitted
  unfold importMany
  rw [Program.run_bind, allowed]
  exact importRows_run rows _ sound ids.advance

theorem importMany_refused (refused : ¬Admitted ws user tape store) :
    ∃ error tape', (importMany (some ws) user rows).run exec tape store =
      (.error error, tape', store) := by
  obtain ⟨error, tape', denied⟩ := assertMember_refused refused
  unfold importMany
  rw [Program.run_bind, denied]
  exact ⟨error, tape', rfl⟩

/-- Without faults and with values that are accepted, all rows are taken. -/
theorem taken_all (storable : ∀ row ∈ rows, Storable row) :
    ∀ {tape : Program.Tape Input}, (∀ call, (tape.later call).fault = none) →
      taken tape rows = rows := by
  induction rows with
  | nil => exact fun _ => rfl
  | cons row rows ih =>
    intro tape clear
    obtain ⟨here, there⟩ := List.forall_mem_cons.mp storable
    by_cases given : phoneOf row = ""
    · rw [taken_digitless given, ih there clear]
    · rw [taken_accepts given ⟨clear 0, clear 1, here⟩, ih there fun call => clear (call + 2)]

end Whole

/-! ### The specification -/

section Specification

variable {ws : Uuid} {rows : List CsvContactRow} {contacts added : List Contact}

/-- The contact is in another workspace, or no row is about it. -/
def elsewhere (ws : Uuid) (rows : List CsvContactRow) (contact : Contact) : Bool :=
  !(contact.workspaceId == ws && (phonesOf rows).contains contact.phone)

/-- **What an import is for**: every phone of the rows has one contact, which carries the last name
and the last tags the rows give, and else what it had before; all other contacts are unchanged. -/
structure Imported (ws : Uuid) (rows : List CsvContactRow) (before after : List Contact) :
    Prop where
  each : ∀ phone ∈ phonesOf rows, ∃ contact, after.filter (isAt ws phone) = [contact] ∧
    (∀ old ∈ before, isAt ws phone old = true →
      contact = { old with
        name := (lastName phone rows).or old.name
        tags := (lastTags phone rows).getD old.tags }) ∧
    ((∀ old ∈ before, isAt ws phone old = false) →
      contact.name = lastName phone rows ∧ contact.tags = (lastTags phone rows).getD [] ∧
        contact.isBlacklisted = false ∧ contact.notes = none)
  others : after.filter (elsewhere ws rows) = before.filter (elsewhere ws rows)

/-- The phones of the rows that are not stored before. -/
def missing (ws : Uuid) (rows : List CsvContactRow) (before : List Contact) : List String :=
  (phonesOf rows).dedup.filter fun phone => !before.any (isAt ws phone)

theorem lastName_absent {phone : String} (absent : phone ∉ phonesOf rows) :
    lastName phone rows = none ∧ lastTags phone rows = none := by
  have none_about : rows.filter (About phone) = [] := by
    refine List.filter_eq_nil_iff.mpr fun row member about => absent ?_
    obtain ⟨given, same⟩ := about_iff.mp about
    exact List.mem_filter.mpr ⟨List.mem_map.mpr ⟨row, member, same⟩, bne_iff_ne.mpr (same ▸ given)⟩
  unfold lastName lastTags
  rw [none_about]
  exact ⟨rfl, rfl⟩

/-- The one contact of a phone. -/
theorem Sound.filter_at (sound : Sound contacts) {contact : Contact} (member : contact ∈ contacts)
    {phone : String} (here : isAt ws phone contact = true) :
    contacts.filter (isAt ws phone) = [contact] := by
  obtain ⟨own, rfl⟩ := (isAt_iff ws).mp here
  refine List.perm_singleton.mp ((List.perm_ext_iff_of_nodup
    ((List.Nodup.of_map _ sound.ids).filter _) (List.nodup_singleton _)).mpr fun other => ?_)
  rw [List.mem_filter, List.mem_singleton]
  constructor
  · exact fun ⟨listed, there⟩ => sound.only member here listed there
  · rintro rfl
    exact ⟨member, here⟩

theorem elsewhere_revise (contact : Contact) :
    elsewhere ws rows (revise ws rows contact) = elsewhere ws rows contact := by
  unfold elsewhere
  rw [revise_key.2.1, revise_key.2.2]

/-- Nothing is done to a contact no row is about. -/
theorem revise_elsewhere {contact : Contact} (out : elsewhere ws rows contact = true) :
    revise ws rows contact = contact := by
  by_cases here : contact.workspaceId = ws
  · have absent : contact.phone ∉ phonesOf rows := by
      simpa [elsewhere, here] using out
    exact (revise_here here).trans
      (revised_silent (lastName_absent absent).1 (lastName_absent absent).2)
  · exact if_neg here

/-- **The run of the loop meets the specification.** -/
theorem Added.imported (adds : Added ws (knownPhones ws contacts) rows added)
    (sound : Sound (after ws rows contacts added)) :
    Imported ws rows contacts (after ws rows contacts added) where
  each phone listed := by
    by_cases known : phone ∈ knownPhones ws contacts
    · obtain ⟨old, stored, here⟩ := mem_knownPhones.mp known
      obtain ⟨own, rfl⟩ := (isAt_iff ws).mp here
      have there : isAt ws old.phone (revised rows old) = true := here
      have member : revised rows old ∈ after ws rows contacts added :=
        List.mem_append_left _ (List.mem_map.mpr ⟨old, stored, revise_here own⟩)
      refine ⟨revised rows old, sound.filter_at member there, fun other listed same => ?_,
        fun none => absurd here (by rw [none old stored]; decide)⟩
      obtain ⟨own', phone'⟩ := (isAt_iff ws).mp same
      have revisions : revised rows other = revised rows old := by
        refine sound.only member there ?_ ((isAt_iff ws).mpr ⟨own', phone'⟩)
        exact List.mem_append_left _ (List.mem_map.mpr ⟨other, listed, revise_here own'⟩)
      rw [← revisions, revised, phone']
    · have new : phone ∈ added.map Contact.phone := adds.phones ▸ mem_newPhones.mpr ⟨listed, known⟩
      obtain ⟨contact, member, rfl⟩ := List.mem_map.mp new
      obtain ⟨own, holds⟩ := adds.each contact member
      refine ⟨contact, sound.filter_at (List.mem_append_right _ member)
        ((isAt_iff ws).mpr ⟨own, rfl⟩), fun old stored here => ?_, fun _ => holds⟩
      exact absurd (mem_knownPhones.mpr ⟨old, stored, here⟩) known
  others := by
    have none_new : added.filter (elsewhere ws rows) = [] := by
      refine List.filter_eq_nil_iff.mpr fun contact member out => ?_
      have listed : contact.phone ∈ phonesOf rows :=
        (mem_newPhones.mp (adds.phones ▸ List.mem_map_of_mem member)).1
      simp [elsewhere, (adds.each contact member).1, listed] at out
    rw [after, List.filter_append, none_new, List.append_nil, List.filter_map]
    have same : elsewhere ws rows ∘ revise ws rows = elsewhere ws rows := funext elsewhere_revise
    rw [same]
    refine (List.map_congr_left fun contact member => ?_).trans (List.map_id' _)
    exact revise_elsewhere (List.mem_filter.mp member).2

/-- How many contacts are added. -/
theorem Added.length (adds : Added ws (knownPhones ws contacts) rows added) :
    added.length = (missing ws rows contacts).length := by
  unfold missing
  rw [← List.length_map Contact.phone, adds.phones]
  refine List.Perm.length_eq ((List.perm_ext_iff_of_nodup newPhones_nodup
    ((List.nodup_dedup _).filter _)).mpr fun phone => ?_)
  rw [mem_newPhones, List.mem_filter, List.mem_dedup, mem_knownPhones]
  simp

/-- Contacts the rows have revised stay as they are. -/
theorem Added.again (adds : Added ws (knownPhones ws contacts) rows added) :
    ∀ contact ∈ after ws rows contacts added, revise ws rows contact = contact := by
  intro contact member
  by_cases here : contact.workspaceId = ws
  · rw [revise_here here]
    unfold revised
    obtain old | new := List.mem_append.mp member
    · obtain ⟨stored, _, rfl⟩ := List.mem_map.mp old
      have own : stored.workspaceId = ws := revise_key.2.1.symm.trans here
      rw [revise_here own]
      unfold revised
      dsimp only
      rw [← Option.or_assoc, Option.or_self]
      cases lastTags stored.phone rows <;> rfl
    · obtain ⟨_, name, tags, _⟩ := adds.each contact new
      have same_name : (lastName contact.phone rows).or contact.name = contact.name := by
        rw [name, Option.or_self]
      have same_tags : (lastTags contact.phone rows).getD contact.tags = contact.tags := by
        rw [tags]
        cases lastTags contact.phone rows <;> rfl
      rw [same_name, same_tags]
  · exact if_neg here

end Specification

/-- The run of an import whose rows are all taken. -/
theorem importMany_whole {user : Uuid} {tape : Program.Tape Input} {store : Store}
    (member : ∃ member ∈ store.db .members, member.workspaceId = ws ∧ member.userId = user)
    (sound : Sound (store.db .contacts)) (fits : ∀ row ∈ rows, Fits row)
    (clear : ∀ call, (tape.later call).fault = none) (ids : Fresh tape (store.db .contacts)) :
    ∃ reply tape' added,
      (importMany (some ws) user rows).run exec tape store =
        (.ok reply, tape', holding store (after ws rows (store.db .contacts) added)) ∧
      Added ws (knownPhones ws (store.db .contacts)) rows added ∧
      Sound (after ws rows (store.db .contacts) added) ∧
      reply.created = added.length ∧ reply.skipped = rows.countP digitless ∧
      reply.updated + added.length + rows.countP digitless = rows.length ∧
      reply.total = rows.length := by
  obtain ⟨result, tape', added, ran, loop⟩ := importMany_run ⟨clear 0, member⟩ sound ids rows
  have all : taken tape.advance rows = rows :=
    taken_all (fun row member => (fits row member).1) fun call => clear (call + 1)
  have same : written tape.advance rows = rows := by
    rw [written, all, List.map_congr_left fun row member => kept_short (fits row member).2,
      List.map_id']
  obtain ⟨updated, counts, returns⟩ := loop.whole all
  obtain ⟨adds, stays, _, _⟩ := loop
  rw [same] at ran adds stays
  rw [returns] at ran
  exact ⟨_, tape', added, ran, adds, stays, Nat.zero_add _, Nat.zero_add _,
    by dsimp only; omega, rfl⟩

/-- The same rows once more: every phone is known now, and every contact already is what the rows
say. -/
theorem after_again {added' : List Contact}
    (adds : Added ws (knownPhones ws contacts) rows added)
    (sound : Sound (after ws rows contacts added))
    (adds' : Added ws (knownPhones ws (after ws rows contacts added)) rows added') :
    after ws rows (after ws rows contacts added) added' = after ws rows contacts added := by
  have none_new : added' = [] := by
    rw [← List.map_eq_nil_iff, adds'.phones]
    refine List.eq_nil_iff_forall_not_mem.mpr fun phone new => ?_
    obtain ⟨listed, unknown⟩ := mem_newPhones.mp new
    obtain ⟨contact, only, _⟩ := (adds.imported sound).each phone listed
    have here := List.mem_filter.mp (only ▸ List.mem_singleton_self contact)
    exact unknown (mem_knownPhones.mpr ⟨contact, here⟩)
  rw [none_new, after, List.append_nil]
  exact (List.map_congr_left adds.again).trans (List.map_id' _)

/-- **Contact import equals its declarative specification.** -/
theorem import_spec (ws user : Uuid) (rows : List CsvContactRow) (tape : Program.Tape Input)
    (store : Store)
    (member : ∃ member ∈ store.db .members, member.workspaceId = ws ∧ member.userId = user)
    (sound : Sound (store.db .contacts)) (fits : ∀ row ∈ rows, Fits row)
    (clear : ∀ call, (tape.later call).fault = none) (ids : Fresh tape (store.db .contacts)) :
    ∃ reply tape' contacts,
      (importMany (some ws) user rows).run exec tape store =
        (.ok reply, tape', holding store contacts) ∧
      Imported ws rows (store.db .contacts) contacts ∧
      reply.created = (missing ws rows (store.db .contacts)).length ∧
      reply.skipped = rows.countP digitless ∧
      reply.updated = rows.length - reply.created - reply.skipped ∧
      reply.created + reply.updated + reply.skipped = reply.total ∧ reply.total = rows.length ∧
      ∀ again : Program.Tape Input, (∀ call, (again.later call).fault = none) →
        Fresh again contacts →
          ((importMany (some ws) user rows).run exec again (holding store contacts)).2.2 =
            holding store contacts := by
  obtain ⟨reply, tape', added, ran, adds, stays, created, skipped, counts, total⟩ :=
    importMany_whole member sound fits clear ids
  refine ⟨reply, tape', _, ran, adds.imported stays, created.trans adds.length, skipped,
    by omega, by omega, total, fun again clear ids => ?_⟩
  generalize left : holding store (after ws rows (store.db .contacts) added) = store'
  have contacts : store'.db .contacts = after ws rows (store.db .contacts) added := by
    rw [← left, holding_contacts]
  have member' : ∃ member ∈ store'.db .members, member.workspaceId = ws ∧ member.userId = user := by
    rw [← left]
    exact member
  rw [← contacts] at stays ids
  obtain ⟨_, _, added', ran', adds', _⟩ := importMany_whole member' stays fits clear ids
  rw [contacts] at ran' adds'
  rw [ran', after_again adds (contacts ▸ stays) adds', ← left, holding_holding]

namespace Example

/-- Inputs without faults, with new ids. -/
def tape : Program.Tape Input where
  now := WaAutomation.Example.fine
  later call := { WaAutomation.Example.fine with
    ids := fun _ => String.ofList (List.replicate call 'i') }

/-- A workspace with a member and no contacts. -/
def store : Store where
  db
    | .members => [⟨"w", "u", "owner"⟩]
    | _ => []
  jobs := []
  jobIds := 0
  journal := []
  owner _ _ := none

theorem member : ∃ member ∈ store.db .members, member.workspaceId = "w" ∧ member.userId = "u" :=
  ⟨_, List.mem_singleton_self _, rfl, rfl⟩

theorem sound : Sound (store.db .contacts) :=
  ⟨List.nodup_nil, List.nodup_nil, fun _ none => (by cases none)⟩

theorem ids : Fresh tape (store.db .contacts) where
  new _ none := by cases none
  distinct first second same := by
    have lengths := congrArg String.length same
    simpa [tape] using lengths

/-- Two spellings of one phone, and a row without a digit. -/
def rows : List CsvContactRow :=
  [⟨some "Ann", "628", none⟩, ⟨some "Bob", "+62 8", some ["vip"]⟩, ⟨none, "-", none⟩]

end Example

theorem import_spec_example :
    ∃ reply tape' contacts,
      (importMany (some "w") "u" Example.rows).run exec Example.tape Example.store =
        (.ok reply, tape', holding Example.store contacts) ∧
      Imported "w" Example.rows (Example.store.db .contacts) contacts ∧
      reply.created = 1 ∧ reply.updated = 1 ∧ reply.skipped = 1 := by
  obtain ⟨reply, tape', contacts, ran, imported, created, skipped, updated, _⟩ :=
    import_spec "w" "u" Example.rows Example.tape Example.store Example.member Example.sound
      (by decide) (fun _ => rfl) Example.ids
  have one : reply.created = 1 := created.trans (by decide)
  have none : reply.skipped = 1 := skipped.trans (by decide)
  refine ⟨reply, tape', contacts, ran, imported, one, ?_, none⟩
  rw [updated, one, none]
  rfl

namespace Example

/-- The second phone is longer than its column. -/
def long : String := "Ann,628\nBob,123456789012345678901"

end Example

end WaAutomation.Imports
