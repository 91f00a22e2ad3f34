/-
**The phones of the contacts.**

Three paths write the phone of a contact: `create` normalises it always, `update` when it is truthy,
and `importMany` skips a row of which nothing is left. The first two store what is left, also when
that is nothing.

* `Touches` are the calls the functions make, and `exec_changed` says what such a call does to the
  contacts; that they stay `Sound` follows for every call (`Changed.sound`), whatever the bodies
  are;
* `request_touches` is one request, with one case for each function;
* `phones_apart` and `contacts_well_formed` are about any run of requests, interleaved in any way.
-/

import WaAutomation.Contacts.Import
import WaAutomation.Model.Services
import WaAutomation.Model.Writes

set_option linter.unusedSectionVars false

namespace WaAutomation.Phones

open Library Program ContactsService
open Imports (Sound isAt_iff)

/-! ### Requests -/

/-- A phone of digits only. -/
def Digital (phone : String) : Prop := phone ≠ "" ∧ ∀ mark ∈ phone.toList, mark.isDigit = true

instance (phone : String) : Decidable (Digital phone) :=
  inferInstanceAs (Decidable (_ ∧ ∀ mark ∈ phone.toList, _))

theorem digital_digits {phone : String} (given : digits phone ≠ "") : Digital (digits phone) := by
  refine ⟨given, fun mark member => ?_⟩
  rw [toList_digits] at member
  exact (List.mem_filter.mp member).2

/-- The functions that write contacts. -/
inductive Request where
  | create (ws : Option Uuid) (uid : Uuid) (dto : CreateContactDto)
  | update (id : Uuid) (ws : Option Uuid) (uid : Uuid) (dto : UpdateContactDto)
  | blacklist (id : Uuid) (ws : Option Uuid) (uid : Uuid)
  | remove (id : Uuid) (ws : Option Uuid) (uid : Uuid)
  | importMany (ws : Option Uuid) (uid : Uuid) (rows : List CsvContactRow)

def Request.program : Request → Svc Unit
  | .create ws uid dto => do
      let _ ← ContactsService.create ws uid dto
      return ()
  | .update id ws uid dto => do
      let _ ← ContactsService.update id ws uid dto
      return ()
  | .blacklist id ws uid => do
      let _ ← ContactsService.blacklist id ws uid
      return ()
  | .remove id ws uid => do
      let _ ← ContactsService.remove id ws uid
      return ()
  | .importMany ws uid rows => do
      let _ ← ContactsService.importMany ws uid rows
      return ()

/-- What is left of each phone in the request's body is good. -/
def Request.Gives (good : String → Prop) : Request → Prop
  | .create _ _ dto => good (digits dto.phone)
  | .update _ _ _ dto => ∀ phone, dto.phone = .value phone → good (digits phone)
  | _ => True

/-- Every phone in the request's body has a digit. -/
def Request.WithDigits (request : Request) : Prop := request.Gives fun phone => phone ≠ ""

/-! ### Calls -/

section Calls

variable (good : String → Prop)

/-- The rows of the table are contacts with good phones. -/
def Good : (table : Table) → Row table → Prop
  | .contacts, contact => good contact.phone
  | _, _ => True

/-- Reads, and the calls that write contacts with good phones. -/
inductive Touches : Call → Prop
  | reads {call : Call} (reads : call.reads = true) : Touches call
  | insert {draft : Option (Input → Contact)}
      (writes : ∀ build ∈ draft, ∀ input, good (build input).phone) :
        Touches (.insert .contacts draft)
  | save {entity : Entity Contact} (writes : ∀ row, entity.writes row → good row.phone) :
      Touches (.save .contacts entity)
  | remove (contact : Contact) : Touches (.remove .contacts contact)

/-- What a call does to the contacts. -/
inductive Changed (db : Db) : List Contact → Prop
  | same : Changed db (db .contacts)
  | added {contact : Contact} (fine : good contact.phone)
      (fresh : (db .contacts).any (Db.sameKey contact) = false)
      (checked : db.check .contacts contact = .ok ()) :
      Changed db (db .contacts ++ [Row.held .contacts contact])
  | written {contact : Contact} (fine : good contact.phone)
      (checked : db.check .contacts contact = .ok ()) :
      Changed db (Rows.put (Row.key .contacts) (Row.held .contacts contact) (db .contacts))
  | dropped (gone : Contact → Bool) :
      Changed db ((db .contacts).filter fun contact => !gone contact)

variable {good}

/-- **What one call does to the contacts.** -/
theorem exec_changed {call : Call} (touches : Touches good call) (input : Input) (store : Store) :
    Changed good store.db ((exec call input store).2.db .contacts) := by
  obtain ⟨_, _, _, failed⟩ | performed := exec_cases call input store
  · rw [failed]
    exact .same
  cases touches with
  | reads reads =>
    rw [exec_reads reads]
    exact .same
  | @insert draft writes =>
    rw [performed]
    show Changed good store.db ((store.insert input .contacts draft).2.db .contacts)
    obtain same | ⟨build, db, owner, drafted, inserted, left⟩ :=
      store.insert_snd input .contacts draft
    · rw [same]
      exact .same
    · obtain ⟨fresh, checked, rfl⟩ := Db.insert_ok inserted
      rw [left]
      show Changed good store.db
        (store.db.push .contacts (Row.held .contacts (build input)) .contacts)
      rw [Db.push, Db.set_same]
      exact .added (writes build drafted input) fresh checked
  | @save entity writes =>
    rw [performed]
    show Changed good store.db ((store.save .contacts entity).2.db .contacts)
    obtain ⟨_, failed⟩ | ⟨stored, row, _, onto, checked, saved⟩ | ⟨row, gone, anew,
        checked, saved⟩ :=
      store.save_cases .contacts entity
    · rw [failed]
      exact .same
    · rw [saved]
      show Changed good store.db (store.db.put .contacts (Row.held .contacts row) .contacts)
      rw [Db.put, Db.set_same]
      exact .written (writes row (.inl ⟨stored, onto⟩)) checked
    · have fresh := Store.save_fresh gone anew (congrArg Prod.fst saved)
      rw [saved]
      show Changed good store.db (store.db.push .contacts (Row.held .contacts row) .contacts)
      rw [Db.push, Db.set_same]
      exact .added (writes row (.inr anew)) fresh checked
  | remove contact =>
    rw [performed]
    show Changed good store.db (store.db.erase .contacts (Db.sameKey contact) .contacts)
    rw [Db.erase, Db.set_same]
    exact .dropped _

/-- The contacts stay as the database wants them. -/
theorem Changed.sound {db : Db} {contacts : List Contact} (changed : Changed good db contacts)
    (sound : Sound (db .contacts)) : Sound contacts := by
  cases changed with
  | same => exact sound
  | @added contact _ fresh checked =>
    have different (other : Contact) (member : other ∈ db .contacts) :
        @Db.sameKey .contacts contact other = false :=
      Bool.eq_false_iff.mpr fun same => List.any_eq_false.mp fresh other member same
    refine sound.add (fun other member same => ?_) (fun other member => ?_)
      (Imports.held_kept (Db.check_ok checked).1)
    · have key : Row.key .contacts contact = Row.key .contacts other :=
        congrArg (fun id => (id, "")) same.symm
      exact of_decide_eq_false (different other member) key
    · refine Db.check_apart checked member (decide_eq_false fun key => ?_)
      exact of_decide_eq_false (different other member) key.symm
  | @written contact _ checked => exact sound.over checked
  | dropped gone =>
    have part := List.filter_sublist (l := db .contacts) (p := fun contact => !gone contact)
    exact ⟨sound.ids.sublist (part.map _), sound.phones.sublist (part.map _),
      fun contact member => sound.held contact (part.subset member)⟩

/-- The phones stay good. -/
theorem Changed.phones {db : Db} {contacts : List Contact} (changed : Changed good db contacts)
    (all : ∀ contact ∈ db .contacts, good contact.phone) :
    ∀ contact ∈ contacts, good contact.phone := by
  cases changed with
  | same => exact all
  | added fine _ _ =>
    exact List.forall_mem_append.mpr ⟨all, List.forall_mem_singleton.mpr fine⟩
  | written fine _ =>
    intro other member
    obtain ⟨old, _⟩ | ⟨rfl, _⟩ := Rows.mem_put.mp member
    · exact all other old
    · exact fine
  | dropped gone => exact fun contact member => all contact (List.mem_filter.mp member).1

end Calls

/-! ### Requests of a run -/

section Requests

variable {good : String → Prop}

/-- The calls of a program are among those above, when the contacts it is shown have good phones. -/
abbrev Writes {α : Type} (good : String → Prop) (program : Svc α) (ends : α → Prop) : Prop :=
  program.Given (Shows (Good good)) (Touches good) ends

theorem writes_reads {α : Type} {program : Svc α} (reads : Reads program) :
    Writes good program fun _ => True :=
  given_calls (fun _ => trivial) (calls_of_reads reads fun _ reads => .reads reads)

theorem findOne_good (matching : Contact → Bool) :
    Writes good (Svc.findOne .contacts matching) fun found => ∀ contact ∈ found,
      good contact.phone := by
  refine given_then (given_perform (.reads rfl) fun rows shown => shown) fun rows shown => ?_
  exact fun contact head => (shown contact (List.mem_of_head? head)).1

/-- The contact that is looked up has a good phone. -/
theorem contact_good (id : Uuid) (ws : Option Uuid) (uid : Uuid) :
    Writes good (ContactsService.findOne id ws uid) fun contact => good contact.phone := by
  refine given_then (writes_reads (WorkspacesService.assertMember_reads ws uid)) fun _ _ => ?_
  refine given_then (findOne_good _) fun found shown => ?_
  cases found with
  | none => trivial
  | some contact => exact shown contact rfl

/-- The last call, and what it returns. -/
theorem writes_last {α : Type} {call : Call} {rest : Resp call → Svc α}
    (touches : Touches good call)
    (later : ∀ value, Writes good (rest value) fun _ => True) :
    Writes good (Svc.call call >>= rest) fun _ => True :=
  given_then (given_perform touches fun _ _ => trivial) fun value (_ : True) => later value

theorem writes_then {α : Type} {program : Svc α} (writes : Writes good program fun _ => True) :
    Writes good (program >>= fun _ => Program.ret ()) fun _ => True :=
  given_then writes fun _ _ => trivial

/-- The phone of an update is normalised also when it is empty: nothing is left of it either way. -/
theorem normalizeDto_value {dto : UpdateContactDto} {phone : String}
    (given : dto.phone = .value phone) :
    (normalizeDto dto).phone = .value (digits phone) := by
  unfold normalizeDto
  rw [given]
  dsimp only
  split
  · rename_i none
    rw [given, none]
    rfl
  · rfl

/-- The phone an update leaves. -/
theorem assign_phone {contact row : Contact} {dto : UpdateContactDto}
    (gives : ∀ phone, dto.phone = .value phone → good (digits phone)) (old : good contact.phone)
    (assigned : assign contact (normalizeDto dto) = some row) : good row.phone := by
  have left : (normalizeDto dto).phone.orElse (some contact.phone) = some row.phone := by
    unfold assign at assigned
    split at assigned
    · rename_i phone _ _
      cases assigned
      exact phone
    · cases assigned
  cases given : dto.phone with
  | undefined =>
    have same : (normalizeDto dto).phone = .undefined := by
      rw [normalizeDto, given]
      exact given
    rw [same] at left
    exact Option.some.inj left ▸ old
  | null =>
    have same : (normalizeDto dto).phone = .null := by
      rw [normalizeDto, given]
      exact given
    rw [same] at left
    cases left
  | value phone =>
    rw [normalizeDto_value given] at left
    exact Option.some.inj left ▸ gives phone given

/-- A row of an import keeps the phone of its contact, or stores one that has a digit. -/
theorem importRow_writes (numbers : ∀ phone, digits phone ≠ "" → good (digits phone))
    (ws : Option Uuid) (reply : ImportReply) (row : CsvContactRow) :
    Writes good (importRow ws reply row) fun _ => True := by
  unfold importRow
  dsimp only
  split
  · trivial
  · rename_i given
    refine given_then (findOne_good _) fun existing shown => ?_
    cases existing with
    | none =>
      refine writes_last (.insert fun build drafted input => ?_) fun _ => trivial
      obtain ⟨w, _, rfl⟩ := Option.map_eq_some_iff.mp drafted
      exact numbers _ given
    | some existing =>
      refine writes_last (.save fun written writes => ?_) fun _ => trivial
      rw [Entity.writes_whole writes]
      exact shown existing rfl

theorem importRows_writes (numbers : ∀ phone, digits phone ≠ "" → good (digits phone))
    (ws : Option Uuid) (rows : List CsvContactRow) :
    ∀ reply, Writes good (importRows ws reply rows) fun _ => True := by
  induction rows with
  | nil => exact fun _ => trivial
  | cons row rows ih =>
    exact fun reply => given_then (importRow_writes numbers ws reply row) fun reply _ => ih reply

/-- **One request**, with one case for each function. -/
theorem request_touches (numbers : ∀ phone, digits phone ≠ "" → good (digits phone))
    (request : Request) (gives : request.Gives good) :
    Writes good request.program fun _ => True := by
  cases request with
  | create ws uid dto =>
    refine writes_then ?_
    refine given_then (writes_reads (WorkspacesService.assertMember_reads ws uid)) fun _ _ => ?_
    refine given_perform (.insert fun build drafted input => ?_) fun _ _ => trivial
    obtain ⟨w, _, rfl⟩ := Option.map_eq_some_iff.mp drafted
    exact gives
  | update id ws uid dto =>
    refine writes_then ?_
    refine given_then (contact_good id ws uid) fun contact old => ?_
    refine writes_last (.save fun written writes => ?_) fun _ => trivial
    exact assign_phone gives old (Entity.writes_fixed writes)
  | blacklist id ws uid =>
    refine writes_then ?_
    refine given_then (contact_good id ws uid) fun contact old => ?_
    refine writes_last (.save fun written writes => ?_) fun _ => trivial
    rw [Entity.writes_whole writes]
    exact old
  | remove id ws uid =>
    refine writes_then ?_
    refine given_then (contact_good id ws uid) fun contact _ => ?_
    exact writes_last (.remove contact) fun _ => trivial
  | importMany ws uid rows =>
    refine writes_then ?_
    refine given_then (writes_reads (WorkspacesService.assertMember_reads ws uid)) fun _ _ => ?_
    exact importRows_writes numbers ws rows _

end Requests

/-! ### Runs -/

section Runs

variable {start : Store} {moves : List (Machine.Move Input Nat fun _ => Request)}
  {pool : Calling Request Unit}

/-- **What a run keeps of the contacts**, when the phones that are given are good. -/
theorem run_contacts {good : String → Prop}
    (numbers : ∀ phone, digits phone ≠ "" → good (digits phone))
    (sound : Sound (start.db .contacts)) (all : ∀ contact ∈ start.db .contacts, good contact.phone)
    (gives : ∀ move ∈ moves, Starts (Request.Gives good) move)
    (reached : (services Request.program).run (Machine.Pool.idle start) moves = some pool) :
    Sound (pool.shared.db .contacts) ∧ ∀ contact ∈ pool.shared.db .contacts,
      good contact.phone := by
  have shown (store : Store) (holds : Sound (store.db .contacts) ∧
      ∀ contact ∈ store.db .contacts, good contact.phone) :
      ∀ table, ∀ row ∈ store.db table, Good good table row := by
    intro table row member
    cases table with
    | contacts => exact holds.2 row member
    | _ => trivial
  have step (call : Call) (input : Input) (store : Store) (touches : Touches good call)
      (holds : Sound (store.db .contacts) ∧ ∀ contact ∈ store.db .contacts, good contact.phone) :
      Sound ((exec call input store).2.db .contacts) ∧
        ∀ contact ∈ (exec call input store).2.db .contacts, good contact.phone :=
    have changed := exec_changed touches input store
    ⟨changed.sound holds.1, changed.phones holds.2⟩
  show (fun store : Store => Sound (store.db .contacts) ∧
    ∀ contact ∈ store.db .contacts, good contact.phone) pool.shared
  exact given_run (request_touches numbers) shown step ⟨sound, all⟩ gives reached

/-- No two contacts of a workspace have one phone, whatever the bodies are. -/
theorem phones_apart (sound : Sound (start.db .contacts))
    (reached : (services Request.program).run (Machine.Pool.idle start) moves = some pool) :
    Sound (pool.shared.db .contacts) := by
  have anything : ∀ move ∈ moves, Starts (Request.Gives fun _ => True) move := by
    intro move _ slot request input _
    cases request with
    | update id ws uid dto => exact fun _ _ => trivial
    | _ => trivial
  exact (run_contacts (fun _ _ => trivial) sound (fun _ _ => trivial) anything reached).1

theorem WithDigits.gives {request : Request} (given : request.WithDigits) :
    request.Gives Digital := by
  cases request with
  | create ws uid dto => exact digital_digits given
  | update id ws uid dto => exact fun phone same => digital_digits (given phone same)
  | _ => trivial

end Runs

/-- **Contact phones are well formed and unique**, as long as every phone that a body gives has a
digit. -/
theorem contacts_well_formed {start : Store} (sound : Sound (start.db .contacts))
    (digital : ∀ contact ∈ start.db .contacts, Digital contact.phone)
    {moves : List (Machine.Move Input Nat fun _ => Request)} {pool : Calling Request Unit}
    (given : ∀ move ∈ moves, Starts Request.WithDigits move)
    (reached : (services Request.program).run (Machine.Pool.idle start) moves = some pool) :
    (∀ contact ∈ pool.shared.db .contacts, Digital contact.phone) ∧
      ((pool.shared.db .contacts).map fun contact =>
        (contact.workspaceId, contact.phone)).Nodup := by
  have gives : ∀ move ∈ moves, Starts (Request.Gives Digital) move :=
    fun move member slot request input same =>
      WithDigits.gives (given move member slot request input same)
  exact ⟨(run_contacts (fun _ => digital_digits) sound digital gives reached).2,
    (phones_apart sound reached).phones⟩

namespace Example

/-- A request alone, with the calls it makes. -/
def alone (request : Request) (calls : Nat) (id : Uuid) :
    List (Machine.Move Input Nat fun _ => Request) :=
  let input := { WaAutomation.Example.fine with ids := fun _ => id }
  .start 0 request input :: List.replicate calls (.resume 0 input)

/-- A contact is created, and its phone updated. -/
def moves (phone : String) : List (Machine.Move Input Nat fun _ => Request) :=
  alone (.create (some "w") "u" ⟨some "Ann", "+62 8", none, none, none⟩) 2 "c" ++
    alone (.update "c" (some "w") "u" ⟨.undefined, .value phone, .undefined,
      .undefined, .undefined⟩)
      3 "d"

/-- The phones a run leaves. -/
def phones (moves : List (Machine.Move Input Nat fun _ => Request)) : Option (List String) :=
  ((services Request.program).run (Machine.Pool.idle Imports.Example.store) moves).map fun pool =>
    (pool.shared.db .contacts).map Contact.phone

theorem starts (phone : String) (digit : digits phone ≠ "") :
    ∀ move ∈ moves phone, Starts Request.WithDigits move := by
  intro move member slot request input rfl
  simp only [moves, alone, List.mem_append, List.mem_cons, List.mem_replicate,
    reduceCtorEq, and_false,
    or_false, Machine.Move.start.injEq] at member
  obtain ⟨_, rfl, _⟩ | ⟨_, rfl, _⟩ := member
  · show digits "+62 8" ≠ ""
    decide
  · intro other same
    cases same
    exact digit

end Example

theorem contacts_well_formed_example :
    ∃ pool, (services Request.program).run (Machine.Pool.idle Imports.Example.store)
        (Example.moves "629") = some pool ∧
      ∀ contact ∈ pool.shared.db .contacts, Digital contact.phone :=
  ⟨_, rfl, (contacts_well_formed Imports.Example.sound (fun _ none => (by cases none))
    (Example.starts "629" (by decide)) rfl).1⟩

/-- **A phone without a digit is stored as the empty text**, by `create` and by `update`. -/
theorem phone_erased :
    Example.phones (Example.alone (.create (some "w") "u" ⟨some "Ann", "+", none, none, none⟩)
      2 "c") =
        some [""] ∧
      Example.phones (Example.moves "-") = some [""] ∧ ¬Digital "" := by
  decide +kernel

end WaAutomation.Phones
