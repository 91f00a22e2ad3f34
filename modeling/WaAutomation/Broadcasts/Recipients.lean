/-
**The recipients of a new broadcast.**

`BroadcastsService.create` folds the explicit recipients and the resolved contacts into one map by
phone. The phones of the explicit list are normalised first, so entries merge or go; a contact comes
in only under a phone that is not there yet.

* `explicitPhones` and `listed` are the two sources; `RecipientSet` is what is made of them, and
  `recipients_set` says that the two loops make it;
* `create_run` is a run alone: refused, without recipients, or stored;
* `create_recipients` is the specification of the call, and `blacklisted_left_out` says when no
  blacklisted contact is addressed: contacts that are listed are filtered, explicit phones are not.
-/

import WaAutomation.Library.Entries
import WaAutomation.Model.Calls

set_option linter.unusedSectionVars false

namespace WaAutomation.Recipients

open Library Program BroadcastsService

/-! ### The two sources -/

section Sources

/-- The explicit recipients as entries of the map. -/
def entriesOf (explicit : List BroadcastRecipientInput) : List (String × Record) :=
  (explicit.map fun input => (digits input.phone, input.vars.getD [])).filter fun entry =>
    entry.1 != ""

/-- The phones of the explicit list that have a digit, normalised. -/
def explicitPhones (explicit : List BroadcastRecipientInput) : List String :=
  (explicit.map fun input => digits input.phone).filter fun phone => phone != ""

/-- The variables of the last explicit recipient with a phone. -/
def lastVars (phone : String) (explicit : List BroadcastRecipientInput) : Option Record :=
  ((explicit.filter fun input => digits input.phone == phone).map fun input =>
    input.vars.getD []).getLast?

/-- The entry of a contact. -/
def contactEntry (contact : Contact) : String × Record :=
  (contact.phone, [("name", .str ((orNull contact.name).getD ""))])

/-- The contacts of a workspace that are listed by id, and not blacklisted. -/
def listed (ws : Uuid) (ids : List Uuid) (contacts : List Contact) : List Contact :=
  contacts.filter fun contact =>
    contact.workspaceId == ws && ids.contains contact.id && !contact.isBlacklisted

/-- The recipients made of explicit ones and of contacts. -/
structure RecipientSet (explicit : List BroadcastRecipientInput) (contacts : List Contact)
    (recipients : List (String × Record)) : Prop where
  distinct : (recipients.map Prod.fst).Nodup
  phones : ∀ phone, phone ∈ recipients.map Prod.fst ↔
    phone ∈ explicitPhones explicit ∨ ∃ contact ∈ contacts, contact.phone = phone
  order : (explicitPhones explicit).eraseDups <+: recipients.map Prod.fst
  explicit_vars : ∀ entry ∈ recipients, entry.1 ∈ explicitPhones explicit →
    lastVars entry.1 explicit = some entry.2
  contact_vars : ∀ contact ∈ contacts, contact.phone ∉ explicitPhones explicit →
    contactEntry contact ∈ recipients

variable {explicit : List BroadcastRecipientInput} {contacts : List Contact}

theorem explicitRecipients_eq : explicitRecipients explicit = Entries.setAll []
    (entriesOf explicit) := by
  unfold explicitRecipients Entries.setAll entriesOf
  generalize ([] : List (String × Record)) = map
  induction explicit generalizing map with
  | nil => rfl
  | cons input rest ih =>
    rw [List.foldl_cons, ih, List.map_cons]
    by_cases none : digits input.phone = ""
    · rw [if_pos none, List.filter_cons_of_neg (by simpa using none)]
    · rw [if_neg none, List.filter_cons_of_pos (by simpa using none)]
      rfl

theorem withContacts_eq (map : List (String × Record)) :
    withContacts map contacts = Entries.keepAll map (contacts.map contactEntry) := by
  unfold withContacts Entries.keepAll
  rw [List.foldl_map]
  rfl

theorem keys_entriesOf : Entries.keys (entriesOf explicit) = explicitPhones explicit := by
  have phones : (explicit.map fun input => digits input.phone) =
      (explicit.map fun input => (digits input.phone, input.vars.getD [])).map Prod.fst := by
    rw [List.map_map]
    rfl
  unfold explicitPhones
  rw [phones, List.filter_map]
  rfl

theorem lastValue_entriesOf {phone : String} (given : phone ≠ "") :
    Entries.lastValue phone (entriesOf explicit) = lastVars phone explicit := by
  have kept : (entriesOf explicit).filter (fun entry => entry.1 == phone) =
      (explicit.filter fun input => digits input.phone == phone).map fun input =>
        (digits input.phone, input.vars.getD []) := by
    unfold entriesOf
    rw [List.filter_filter, List.filter_map]
    congr 1
    refine List.filter_congr fun input _ => ?_
    by_cases same : digits input.phone = phone
    · simp [same, given]
    · simp [same]
  unfold Entries.lastValue lastVars
  rw [kept, List.map_map]
  rfl

theorem mem_explicitPhones {phone : String} : phone ∈ explicitPhones explicit ↔
    phone ≠ "" ∧ ∃ input ∈ explicit, digits input.phone = phone := by
  simp only [explicitPhones, List.mem_filter, List.mem_map, bne_iff_ne]
  exact and_comm

/-- The contact found under its phone. -/
theorem lookup_contact (unique : ∀ first ∈ contacts, ∀ second ∈ contacts,
      first.phone = second.phone → first = second) {contact : Contact} (member :
        contact ∈ contacts) :
    (contacts.map contactEntry).lookup contact.phone = some (contactEntry contact).2 := by
  have present : contact.phone ∈ Entries.keys (contacts.map contactEntry) := by
    refine List.mem_map.mpr ⟨contactEntry contact, List.mem_map_of_mem member, rfl⟩
  obtain ⟨vars, found⟩ := Option.isSome_iff_exists.mp (Entries.lookup_isSome.mpr present)
  obtain ⟨other, listed, same⟩ := List.mem_map.mp (Entries.mem_of_lookup found)
  obtain rfl : other = contact := unique other listed contact member (congrArg Prod.fst same)
  rw [found, same]

section Made

variable (explicit contacts)

theorem explicit_nodup : (Entries.keys (explicitRecipients explicit)).Nodup := by
  rw [explicitRecipients_eq]
  exact Entries.nodup_setAll Entries.nodup_empty

theorem explicit_keys : Entries.keys (explicitRecipients explicit) =
    (explicitPhones explicit).eraseDups := by
  rw [explicitRecipients_eq, Entries.keys_setAll Entries.nodup_empty, ← keys_entriesOf]
  rfl

theorem made_nodup :
    (Entries.keys (withContacts (explicitRecipients explicit) contacts)).Nodup := by
  rw [withContacts_eq]
  exact Entries.nodup_keepAll (explicit_nodup explicit)

theorem made_keys : Entries.keys (withContacts (explicitRecipients explicit) contacts) =
    ((explicitPhones explicit).eraseDups ++ contacts.map Contact.phone).eraseDups := by
  rw [withContacts_eq, Entries.keys_keepAll (explicit_nodup explicit), explicit_keys]
  unfold Entries.keys
  rw [List.map_map]
  rfl

theorem made_lookup (phone : String) :
    (withContacts (explicitRecipients explicit) contacts).lookup phone =
      ((explicitRecipients explicit).lookup phone).or
        ((contacts.map contactEntry).lookup phone) := by
  rw [withContacts_eq, Entries.lookup_keepAll]

theorem explicit_lookup {phone : String} (given : phone ≠ "") :
    (explicitRecipients explicit).lookup phone = lastVars phone explicit := by
  rw [explicitRecipients_eq, Entries.lookup_setAll, List.lookup_nil, Option.or_none,
    lastValue_entriesOf given]

end Made

/-- **The two loops make the recipients.** -/
theorem recipients_set (unique : ∀ first ∈ contacts, ∀ second ∈ contacts,
      first.phone = second.phone → first = second) :
    RecipientSet explicit contacts (withContacts (explicitRecipients explicit) contacts) where
  distinct := made_nodup explicit contacts
  phones phone := by
    show phone ∈ Entries.keys _ ↔ _
    rw [made_keys, List.mem_eraseDups, List.mem_append, List.mem_eraseDups, List.mem_map]
  order := by
    show _ <+: Entries.keys _
    rw [made_keys, List.eraseDups_append, ← explicit_keys,
      Entries.eraseDups_nodup (explicit_nodup explicit)]
    exact List.prefix_append _ _
  explicit_vars entry member named := by
    have found := (Entries.mem_iff_lookup (made_nodup explicit contacts)).mp member
    have present : entry.1 ∈ Entries.keys (explicitRecipients explicit) := by
      rw [explicit_keys]
      exact List.mem_eraseDups.mpr named
    obtain ⟨vars, here⟩ := Option.isSome_iff_exists.mp (Entries.lookup_isSome.mpr present)
    rw [made_lookup, here, Option.some_or] at found
    rw [← explicit_lookup explicit (mem_explicitPhones.mp named).1, here, found]
  contact_vars contact member unnamed := by
    have absent : contact.phone ∉ Entries.keys (explicitRecipients explicit) := by
      rw [explicit_keys]
      exact mt List.mem_eraseDups.mp unnamed
    refine (Entries.mem_iff_lookup (made_nodup explicit contacts)).mpr ?_
    rw [made_lookup, Entries.lookup_absent absent, Option.none_or]
    exact lookup_contact unique member

end Sources

/-! ### A run alone -/

section Runs

variable {ws user : Uuid} {store : Store}

/-- The user may create broadcasts in the workspace, and the session is one of the workspace. -/
structure Admitted (ws user session : Uuid) (store : Store) : Prop where
  role : ∃ member, (store.db .members).find? (fun member =>
    member.workspaceId == ws && member.userId == user) = some member ∧
      managers.contains member.role = true
  session : ∃ row ∈ store.db .sessions, row.id = session ∧ row.workspaceId = ws

/-- The recipients of a body. -/
def recipientsOf (ws : Uuid) (dto : CreateBroadcastDto) (store : Store) : List (String × Record) :=
  withContacts (explicitRecipients (dto.recipients.getD []))
    (listed ws (dto.contactIds.getD []) (store.db .contacts))

theorem session_eq (id : Uuid) : SessionsService.findOne id (some ws) user =
    WorkspacesService.assertMember (some ws) user >>= fun _ =>
      Svc.findOne .sessions (fun session => session.id == id && session.workspaceId == ws) >>=
        fun session => session.elim (.throw (.notFound "Session not found")) pure := by
  unfold SessionsService.findOne
  congr 1
  funext _
  congr 1
  funext session
  cases session <;> rfl

theorem session_answers {id : Uuid} {member : WorkspaceMember}
    (found : (store.db .members).find? (fun member =>
      member.workspaceId == ws && member.userId == user) = some member)
    (stored : ∃ row ∈ store.db .sessions, row.id = id ∧ row.workspaceId = ws) :
    ∃ session, Answers (SessionsService.findOne id (some ws) user) store (.ok session) := by
  obtain ⟨row, listed, here⟩ := stored
  have some_here : ((store.db .sessions).find? fun session =>
      session.id == id && session.workspaceId == ws).isSome = true :=
    List.find?_isSome.mpr ⟨row, listed, by simpa using here⟩
  obtain ⟨session, there⟩ := Option.isSome_iff_exists.mp some_here
  refine ⟨session, ?_⟩
  rw [session_eq]
  refine answers_bind (member_answers found) (answers_bind (answers_findOne _ _) ?_)
  rw [there]
  exact answers_ret session

theorem session_refused {id : Uuid} {member : WorkspaceMember}
    (found : (store.db .members).find? (fun member =>
      member.workspaceId == ws && member.userId == user) = some member)
    (gone : ¬∃ row ∈ store.db .sessions, row.id = id ∧ row.workspaceId = ws) :
    Answers (SessionsService.findOne id (some ws) user) store
      (.error (.notFound "Session not found")) := by
  have none_here : ((store.db .sessions).find? fun session =>
      session.id == id && session.workspaceId == ws) = none :=
    List.find?_eq_none.mpr fun row listed here => gone ⟨row, listed, by simpa using here⟩
  rw [session_eq]
  refine answers_bind (member_answers found) (answers_bind (answers_findOne _ _) ?_)
  rw [none_here]
  exact answers_throw _

/-- The contacts an id list resolves to. -/
theorem resolve_answers (ids : List Uuid) :
    Answers (ContactsService.resolvePhones (some ws) ids) store
      (.ok (listed ws ids (store.db .contacts))) := by
  unfold ContactsService.resolvePhones
  by_cases none : ids = []
  · have nobody : listed ws ids (store.db .contacts) = [] :=
      List.filter_eq_nil_iff.mpr fun contact _ => by simp [none]
    rw [if_pos none, nobody]
    exact answers_ret _
  · have both : listed ws ids (store.db .contacts) = ((store.db .contacts).filter fun contact =>
        contact.workspaceId == ws && ids.contains contact.id).filter fun contact =>
          !contact.isBlacklisted := by
      rw [List.filter_filter]
      exact List.filter_congr fun contact _ => Bool.and_comm _ _
    rw [if_neg none, both]
    exact answers_bind (answers_find _ _) (answers_ret _)

/-- The recipients a step has added. -/
def added (before after : Store) : List BroadcastRecipient :=
  (after.db .recipients).drop (before.db .recipients).length

/-- The phone and the variables of a recipient. -/
def addressed (recipient : BroadcastRecipient) : String × Record :=
  (recipient.phone, recipient.vars)

theorem addressed_rows (input : Input) (id : Uuid) (recipients : List (String × Record)) :
    ∀ index, (Store.recipientRows input id index recipients).map addressed = recipients := by
  induction recipients with
  | nil => exact fun _ => rfl
  | cons entry rest ih => exact fun index => congrArg (entry :: ·) (ih (index + 1))

theorem rows_broadcast (input : Input) (id : Uuid) (recipients : List (String × Record)) :
    ∀ index, ∀ row ∈ Store.recipientRows input id index recipients, row.broadcastId = id := by
  induction recipients with
  | nil => exact fun _ _ none => (by cases none)
  | cons entry rest ih =>
    exact fun index => List.forall_mem_cons.mpr ⟨rfl, ih (index + 1)⟩

/-- What a stored broadcast leaves. -/
structure Stored (before after : Store) (broadcast : Broadcast)
    (recipients : List (String × Record)) :
    Prop where
  broadcasts : after.db .broadcasts = before.db .broadcasts ++ [broadcast]
  kept : after.db .recipients = before.db .recipients ++ added before after
  own : ∀ row ∈ added before after, row.broadcastId = broadcast.id
  addressed : (added before after).map addressed = recipients
  total : broadcast.total = (added before after).length

/-- The insert of a broadcast: refused by the database, or stored. -/
theorem insertBroadcast_run {draft : Input → Broadcast} {recipients : List (String × Record)}
    (total : ∀ input, (draft input).total = recipients.length) (input : Input) :
    (∃ message, exec (.insertBroadcast (some draft) recipients) input store =
      (.error (.database message), store)) ∨
    ∃ broadcast after, exec (.insertBroadcast (some draft) recipients) input store =
      (.ok broadcast, after) ∧ Stored store after broadcast recipients := by
  obtain ⟨message, _, _, failed⟩ | performed :=
    exec_cases (.insertBroadcast (some draft) recipients) input store
  · exact .inl ⟨message, failed⟩
  rw [performed]
  simp only [perform, Store.insertBroadcast]
  cases inserted : store.db.insert .broadcasts (draft input) with
  | error error =>
    obtain ⟨message, rfl⟩ := Db.insert_error inserted
    exact .inl ⟨message, rfl⟩
  | ok db =>
    simp only
    cases all : db.insertAll .recipients
        (Store.recipientRows input (draft input).id 1 recipients) with
    | error error =>
      obtain ⟨message, rfl⟩ := Db.insertAll_error all
      exact .inl ⟨message, rfl⟩
    | ok db' =>
      have rows : db' .recipients = store.db .recipients ++
          Store.recipientRows input (draft input).id 1 recipients := by
        rw [Db.insertAll_rows all, Db.insert_other (by decide) inserted]
        -- a recipient is kept as it is
        exact congrArg (_ ++ ·) (List.map_id' _)
      have new : added store { store with db := db' } =
          Store.recipientRows input (draft input).id 1 recipients := by
        show (db' .recipients).drop _ = _
        rw [rows, List.drop_left]
      refine .inr ⟨_, _, rfl, ⟨?_, ?_, ?_, ?_, ?_⟩⟩
      · show db' .broadcasts = _
        rw [Db.insertAll_other (by decide) all, (Db.insert_ok inserted).2.2, Db.push, Db.set_same]
        rfl
      · rw [new]
        exact rows
      · rw [new]
        exact rows_broadcast input _ recipients 1
      · rw [new]
        exact addressed_rows input _ recipients 1
      · rw [new, total, ← List.length_map addressed, addressed_rows]

/-- The outcome of `create`. -/
inductive Outcome (ws user : Uuid) (dto : CreateBroadcastDto) (store : Store) :
    Except Err Broadcast × Tape Input × Store → Prop
  | denied {error : Err} {tape' : Tape Input} (denied : ¬Admitted ws user dto.sessionId store) :
      Outcome ws user dto store (.error error, tape', store)
  | failed {message : String} {tape' : Tape Input} :
      Outcome ws user dto store (.error (.database message), tape', store)
  | empty {tape' : Tape Input} (empty : recipientsOf ws dto store = []) :
      Outcome ws user dto store
        (.error (.badRequest "Broadcast has no recipients"), tape', store)
  | stored {broadcast : Broadcast} {tape' : Tape Input} {after : Store}
      (some_left : recipientsOf ws dto store ≠ [])
      (stored : Stored store after broadcast (recipientsOf ws dto store)) :
      Outcome ws user dto store (.ok broadcast, tape', after)

theorem insert_outcome {dto : CreateBroadcastDto} (some_left : recipientsOf ws dto store ≠ [])
    {draft : Input → Broadcast}
    (total : ∀ input, (draft input).total = (recipientsOf ws dto store).length)
    (tape : Tape Input) :
    Outcome ws user dto store
      ((Svc.call (.insertBroadcast (some draft) (recipientsOf ws dto store))).run exec
        tape store) := by
  unfold Svc.call
  rw [run_perform]
  obtain ⟨message, failed⟩ | ⟨broadcast, after, ran, stored⟩ :=
    insertBroadcast_run total (tape.later 0)
  · rw [failed]
    exact .failed
  · rw [ran]
    exact .stored some_left stored

/-- Who is not admitted gets an error, and nothing is stored. -/
theorem create_denied (h : Helpers) {dto : CreateBroadcastDto}
    (denied : ¬Admitted ws user dto.sessionId store) :
    ∃ error, Answers (BroadcastsService.create h (some ws) user dto) store (.error error) := by
  by_cases role : ∃ member, (store.db .members).find? (fun member =>
      member.workspaceId == ws && member.userId == user) = some member ∧
        managers.contains member.role = true
  · obtain ⟨member, found, allowed⟩ := role
    have gone : ¬∃ row ∈ store.db .sessions, row.id = dto.sessionId ∧ row.workspaceId = ws :=
      fun session => denied ⟨⟨member, found, allowed⟩, session⟩
    exact ⟨_, answers_bind (role_answers found allowed) (answers_stop (session_refused found gone))⟩
  · obtain ⟨message, refused⟩ := role_refused managers fun member found =>
      Bool.eq_false_iff.mpr fun allowed => role ⟨member, found, allowed⟩
    exact ⟨_, answers_stop refused⟩

/-- **A run of `create`.** -/
theorem create_run (h : Helpers) (dto : CreateBroadcastDto) (tape : Tape Input) :
    Outcome ws user dto store
      ((BroadcastsService.create h (some ws) user dto).run exec tape store) := by
  by_cases admitted : Admitted ws user dto.sessionId store
  · obtain ⟨member, found, allowed⟩ := admitted.role
    obtain ⟨session, answers⟩ := session_answers found admitted.session
    unfold BroadcastsService.create
    -- the three lookups come first, each with the store as it was
    obtain ⟨_, _, ran⟩ | ⟨tape₁, ran⟩ := answers_run (role_answers found allowed) tape
    · rw [ran]
      exact .failed
    rw [ran]
    obtain ⟨_, _, ran⟩ | ⟨tape₂, ran⟩ := answers_run answers tape₁
    · rw [ran]
      exact .failed
    rw [ran]
    obtain ⟨_, _, ran⟩ | ⟨tape₃, ran⟩ :=
      answers_run (resolve_answers (dto.contactIds.getD [])) tape₂
    · rw [ran]
      exact .failed
    rw [ran]
    have made : withContacts (explicitRecipients (dto.recipients.getD []))
        (listed ws (dto.contactIds.getD []) (store.db .contacts)) = recipientsOf ws dto store := rfl
    dsimp only
    rw [made]
    by_cases none : recipientsOf ws dto store = []
    · rw [if_pos none]
      exact .empty none
    · rw [if_neg none]
      exact insert_outcome none (fun _ => rfl) tape₃
  · obtain ⟨error, answers⟩ := create_denied h admitted
    obtain ⟨outcome, tape', ran, rfl | ⟨message, rfl⟩⟩ := answers tape
    · rw [ran]
      exact .denied admitted
    · rw [ran]
      exact .failed

end Runs

/-! ### The specification -/

section Specification

variable {ws : Uuid} {dto : CreateBroadcastDto} {store : Store}

/-- The body addresses nobody: no explicit phone has a digit, and no listed id names a contact of
the workspace that is not blacklisted. -/
def Nobody (ws : Uuid) (dto : CreateBroadcastDto) (store : Store) : Prop :=
  (∀ input ∈ dto.recipients.getD [], ∀ mark ∈ input.phone.toList, mark.isDigit = false) ∧
    ∀ contact ∈ store.db .contacts, contact.workspaceId = ws →
      contact.id ∈ dto.contactIds.getD [] → contact.isBlacklisted = true

/-- The phone is that of a contact blacklisted in the workspace. -/
def Blacklisted (ws : Uuid) (phone : String) (store : Store) : Prop :=
  ∃ contact ∈ store.db .contacts, contact.workspaceId = ws ∧ contact.isBlacklisted = true ∧
    contact.phone = phone

instance (phone : String) : Decidable (Blacklisted ws phone store) :=
  inferInstanceAs (Decidable (∃ contact ∈ store.db .contacts, contact.workspaceId = ws ∧
    contact.isBlacklisted = true ∧ contact.phone = phone))

theorem mem_listed {ids : List Uuid} {contacts : List Contact} {contact : Contact} :
    contact ∈ listed ws ids contacts ↔ contact ∈ contacts ∧ contact.workspaceId = ws ∧
      contact.id ∈ ids ∧ contact.isBlacklisted = false := by
  simp [listed, and_assoc]

/-- Two contacts of the workspace with one phone are one. -/
theorem contact_unique {contacts : List Contact}
    (unique : (contacts.map fun contact => (contact.workspaceId, contact.phone)).Nodup)
    {first second : Contact} (left : first ∈ contacts) (right : second ∈ contacts)
    (own : first.workspaceId = ws) (own' : second.workspaceId = ws)
    (same : first.phone = second.phone) : first = second :=
  Rows.unique unique left right (by rw [own, own', same])

theorem set_of_body
    (unique : ((store.db .contacts).map fun contact =>
      (contact.workspaceId, contact.phone)).Nodup) :
    RecipientSet (dto.recipients.getD []) (listed ws (dto.contactIds.getD []) (store.db .contacts))
      (recipientsOf ws dto store) := by
  refine recipients_set fun first left second right same => ?_
  obtain ⟨stored, own, _⟩ := mem_listed.mp left
  obtain ⟨stored', own', _⟩ := mem_listed.mp right
  exact contact_unique unique stored stored' own own' same

theorem no_recipients
    (made : RecipientSet (dto.recipients.getD [])
      (listed ws (dto.contactIds.getD []) (store.db .contacts)) (recipientsOf ws dto store)) :
    recipientsOf ws dto store = [] ↔ Nobody ws dto store := by
  constructor
  · intro none
    have nothing (phone : String) : ¬(phone ∈ explicitPhones (dto.recipients.getD []) ∨
        ∃ contact ∈ listed ws (dto.contactIds.getD []) (store.db .contacts),
          contact.phone = phone) := by
      rw [← made.phones phone, none]
      exact List.not_mem_nil
    refine ⟨fun input given => digits_empty.mp ?_, fun contact stored own named => ?_⟩
    · by_contra some_digit
      exact nothing _ (.inl (mem_explicitPhones.mpr ⟨some_digit, input, given, rfl⟩))
    · by_contra free
      exact nothing _ (.inr ⟨contact,
        mem_listed.mpr ⟨stored, own, named, Bool.eq_false_iff.mpr free⟩, rfl⟩)
  · rintro ⟨no_digit, no_contact⟩
    refine List.eq_nil_iff_forall_not_mem.mpr fun entry member => ?_
    obtain explicit | ⟨contact, named, _⟩ := (made.phones entry.1).mp (List.mem_map_of_mem member)
    · obtain ⟨given, input, listed, same⟩ := mem_explicitPhones.mp explicit
      exact given (same.symm.trans (digits_empty.mpr (no_digit input listed)))
    · obtain ⟨stored, own, id, free⟩ := mem_listed.mp named
      rw [no_contact contact stored own id] at free
      cases free

end Specification

/-- **The recipients of a new broadcast.** -/
theorem create_recipients (h : Helpers) (ws user : Uuid) (dto : CreateBroadcastDto)
    (tape : Tape Input) (store : Store) (admitted : Admitted ws user dto.sessionId store)
    (unique : ((store.db .contacts).map fun contact => (contact.workspaceId, contact.phone)).Nodup)
    (accepted : ∀ message, ((BroadcastsService.create h (some ws) user dto).run exec tape store).1 ≠
      .error (.database message)) :
    let outcome := (BroadcastsService.create h (some ws) user dto).run exec tape store
    (outcome.1 = .error (.badRequest "Broadcast has no recipients") ∧ outcome.2.2 = store ↔
      Nobody ws dto store) ∧
    (¬Nobody ws dto store → ∃ broadcast recipients, outcome.1 = .ok broadcast ∧
      Stored store outcome.2.2 broadcast recipients ∧
      RecipientSet (dto.recipients.getD [])
        (listed ws (dto.contactIds.getD []) (store.db .contacts)) recipients) := by
  intro outcome
  have made := @set_of_body ws dto store unique
  have nobody := no_recipients made
  have ran : Outcome ws user dto store outcome := create_run h dto tape
  have fine : ∀ message, outcome.1 ≠ .error (.database message) := accepted
  clear_value outcome
  cases ran with
  | denied denied => exact absurd admitted denied
  | failed => exact absurd rfl (fine _)
  | empty none => exact ⟨iff_of_true ⟨rfl, rfl⟩ (nobody.mp none), absurd (nobody.mp none)⟩
  | stored some_left stored =>
    refine ⟨iff_of_false ?_ (mt nobody.mpr some_left), fun _ => ⟨_, _, rfl, stored, made⟩⟩
    rintro ⟨wrong, _⟩
    cases wrong

namespace Example

/-- A workspace with a session and two contacts, the second one blacklisted. -/
def store : Store where
  db
    | .members => [⟨"w", "u", "owner"⟩]
    | .sessions => [⟨"s", "w", "line", "line", none, .connected, none⟩]
    | .contacts => [⟨"c1", "w", some "Ann", "628", [], false, none, 0⟩,
        ⟨"c2", "w", some "Bob", "629", [], true, none, 0⟩]
    | _ => []
  jobs := []
  jobIds := 0
  journal := []
  owner _ _ := none

/-- Inputs without faults, each with distinct ids. -/
def tape : Tape Input :=
  let input := { WaAutomation.Example.fine with
    ids := fun index => String.ofList (List.replicate index 'i') }
  ⟨input, fun _ => input⟩

/-- A broadcast to a phone and to both contacts. -/
def body (phone : String) : CreateBroadcastDto :=
  ⟨"news", "s", "hello", none, some [⟨phone, none⟩], some ["c1", "c2"], none⟩

theorem admitted (phone : String) : Admitted "w" "u" (body phone).sessionId store :=
  ⟨⟨_, rfl, by decide⟩, _, List.mem_singleton_self _, rfl, rfl⟩

theorem unique :
    ((store.db .contacts).map fun contact => (contact.workspaceId, contact.phone)).Nodup := by
  decide

/-- What a run of the body stores. -/
def outcome (phone : String) : Except Err Broadcast × Tape Input × Store :=
  (BroadcastsService.create WaAutomation.Example.helpers (some "w") "u" (body phone)).run exec tape
    store

theorem returns (phone : String) (fits : (outcome phone).1.isOk = true) :
    ∃ broadcast, (outcome phone).1 = .ok broadcast := by
  cases ran : (outcome phone).1 with
  | ok broadcast => exact ⟨broadcast, rfl⟩
  | error error =>
    rw [ran] at fits
    cases fits

end Example

theorem create_recipients_example :
    ∃ broadcast recipients, (Example.outcome "+62 7").1 = .ok broadcast ∧
      Stored Example.store (Example.outcome "+62 7").2.2 broadcast recipients ∧
      RecipientSet [⟨"+62 7", none⟩] (listed "w" ["c1", "c2"] (Example.store.db .contacts))
        recipients := by
  obtain ⟨broadcast, ran⟩ := Example.returns "+62 7" (by decide +kernel)
  refine (create_recipients WaAutomation.Example.helpers "w" "u" (Example.body "+62 7") Example.tape
    Example.store (Example.admitted _) Example.unique ?_).2 ?_
  · intro message failed
    cases ran.symm.trans failed
  · rintro ⟨no_digit, _⟩
    exact absurd (no_digit _ (List.mem_singleton_self _) '6' (by decide)) (by decide)

/-- **No blacklisted contact is addressed exactly when no explicit phone is that of one.** -/
theorem blacklisted_left_out (h : Helpers) (ws user : Uuid) (dto : CreateBroadcastDto)
    (tape : Tape Input) (store : Store)
    (unique : ((store.db .contacts).map fun contact => (contact.workspaceId, contact.phone)).Nodup)
    (created : ∃ broadcast,
      ((BroadcastsService.create h (some ws) user dto).run exec tape store).1 = .ok broadcast) :
    let outcome := (BroadcastsService.create h (some ws) user dto).run exec tape store
    (∀ row ∈ added store outcome.2.2, ¬Blacklisted ws row.phone store) ↔
      ∀ phone ∈ explicitPhones (dto.recipients.getD []), ¬Blacklisted ws phone store := by
  intro outcome
  have made := @set_of_body ws dto store unique
  have ran : Outcome ws user dto store outcome := create_run h dto tape
  have okay : ∃ broadcast, outcome.1 = .ok broadcast := created
  clear_value outcome
  cases ran with
  | @stored _ _ after _ stored =>
    have phones : (added store after).map BroadcastRecipient.phone =
        (recipientsOf ws dto store).map Prod.fst := by
      rw [← stored.addressed, List.map_map]
      rfl
    constructor
    · intro left_out phone explicit
      have addressed : phone ∈ (recipientsOf ws dto store).map Prod.fst :=
        (made.phones phone).mpr (.inl explicit)
      rw [← phones] at addressed
      obtain ⟨row, new, rfl⟩ := List.mem_map.mp addressed
      exact left_out row new
    · intro explicit row new blacklisted
      have addressed : row.phone ∈ (recipientsOf ws dto store).map Prod.fst := by
        rw [← phones]
        exact List.mem_map_of_mem new
      obtain given | ⟨contact, named, same⟩ := (made.phones row.phone).mp addressed
      · exact explicit _ given blacklisted
      · -- a contact that is listed is the only one with its phone
        obtain ⟨stored', own, _, free⟩ := mem_listed.mp named
        obtain ⟨other, there, own', black, phone⟩ := blacklisted
        obtain rfl := contact_unique unique stored' there own own' (same.trans phone.symm)
        rw [free] at black
        cases black
  | _ =>
    obtain ⟨broadcast, wrong⟩ := okay
    cases wrong

theorem blacklisted_left_out_example :
    (added Example.store (Example.outcome "+62 7").2.2).map BroadcastRecipient.phone =
        ["627", "628"] ∧
      ∀ row ∈ added Example.store (Example.outcome "+62 7").2.2,
        ¬Blacklisted "w" row.phone Example.store := by
  refine ⟨by decide +kernel, ?_⟩
  exact (blacklisted_left_out WaAutomation.Example.helpers "w" "u" (Example.body "+62 7")
    Example.tape Example.store Example.unique (Example.returns _ (by decide +kernel))).mpr
      (by decide +kernel)

/-- **A blacklisted phone that is given explicitly is addressed**: the contact is left out of the
listed ones, and comes in by its number. -/
theorem blacklisted_addressed :
    (added Example.store (Example.outcome "629").2.2).map BroadcastRecipient.phone =
      ["629", "628"] ∧ Blacklisted "w" "629" Example.store := by
  decide +kernel

end WaAutomation.Recipients
