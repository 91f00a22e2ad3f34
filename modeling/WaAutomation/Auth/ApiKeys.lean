/-
**The revocation of an API key.**

`validate` loads the row of a key and saves it to record the time of its use. When the row is
deleted in between, the save inserts it again. A removal is undisturbed when no validation that has
loaded the key is in flight; after it the row of the key never exists again, and no validation of
its raw value succeeds.

* `Advances` says where a call in flight goes on;
* `Consistent` is the invariant of all runs: ids and hashes determine each other, also in the rows
  that calls in flight carry, since no key and no id is drawn twice (`Fresh`);
* `Gone` is the invariant after the removal, and `gone_act` its step lemma;
* `revocation_final` is about runs after an undisturbed removal, and `revocation_undone` is a run in
  which it is disturbed.
-/

import WaAutomation.Model.Services
import WaAutomation.Model.Webhooks

set_option linter.unusedSectionVars false

namespace WaAutomation.ApiKeys

open Library

/-! ### The system -/

inductive Request where
  | create (workspaceId : Option Uuid) (userId : Uuid) (dto : CreateApiKeyDto)
  | remove (id : Uuid) (workspaceId : Option Uuid) (userId : Uuid)
  | validate (rawKey : String)

inductive Reply where
  | created (key : CreatedApiKey)
  | message (text : String)
  | validated (workspaceId : Option Uuid)
  deriving DecidableEq, Repr

def Request.program (h : Helpers) : Request → Svc Reply
  | .create workspaceId userId dto => do
      return .created (← ApiKeysService.create h workspaceId userId dto)
  | .remove id workspaceId userId => do
      return .message (← ApiKeysService.remove id workspaceId userId)
  | .validate rawKey => do
      return .validated (← ApiKeysService.validate h rawKey)

def system (h : Helpers) := services (Request.program h)

abbrev Pool := Calling Request Reply

abbrev Move := Machine.Move Input Nat fun _ => Request

/-- The key a create draws. -/
def drawn (input : Input) : String := "wa_" ++ input.bytes

/-! ### Where a request goes on -/

/-- The draft of a row with the hash of a raw key. -/
def Drafts (h : Helpers) (rawKey : String) (draft : Input → ApiKey) : Prop :=
  ∀ input, (draft input).id = input.ids 0 ∧ (draft input).keyHash = h.sha256 rawKey

/-- The request validates no key. -/
def Request.manages : Request → Prop
  | .validate _ => False
  | _ => True

/-- The calls a request waits at. -/
inductive Stands (h : Helpers) : Request → Call → Prop
  | checking {request : Request} (manages : request.manages) (matching : WorkspaceMember → Bool) :
      Stands h request (.find .members matching)
  | inserting {workspaceId : Option Uuid} {userId : Uuid} {dto : CreateApiKeyDto}
      (draft : Option (Input → ApiKey)) :
      Stands h (.create workspaceId userId dto) (.insert .apiKeys draft)
  | finding {id : Uuid} {workspaceId : Option Uuid} {userId : Uuid} {matching : ApiKey → Bool}
      (own : ∀ key, matching key = true → key.id = id) :
      Stands h (.remove id workspaceId userId) (.find .apiKeys matching)
  | removing {id : Uuid} {workspaceId : Option Uuid} {userId : Uuid} (key : ApiKey) :
      Stands h (.remove id workspaceId userId) (.remove .apiKeys key)
  | looking (rawKey : String) :
      Stands h (.validate rawKey) (.find .apiKeys fun key => key.keyHash == h.sha256 rawKey)
  | touching (rawKey : String) (key : ApiKey) :
      Stands h (.validate rawKey) (.save .apiKeys (.whole key))

/-- Where a request goes on after a reply. -/
def Goes (h : Helpers) (request : Request) (call : Call) (reply : Except Err (Resp call))
    (reading : Input) (stop : Stop Err Input Call Resp Reply) : Prop :=
  (∃ error, stop = .finished (.error error)) ∨
    match request, call, reply with
    | .create _ _ _, .find .members _, _ =>
        ∃ draft next, stop = .calling (.insert .apiKeys draft) next ∧
          ∀ draft', draft = some draft' → Drafts h (drawn reading) draft'
    | .create _ _ _, .insert .apiKeys _, _ => ∃ key, stop = .finished (.ok (.created key))
    | .remove id _ _, .find .members _, _ =>
        ∃ matching next, stop = .calling (.find .apiKeys matching) next ∧
          ∀ key, matching key = true → key.id = id
    | .remove _ _ _, .find .apiKeys _, .ok rows =>
        ∃ key next, rows.head? = some key ∧ stop = .calling (.remove .apiKeys key) next
    | .remove _ _ _, .remove .apiKeys _, _ => ∃ text, stop = .finished (.ok (.message text))
    | .validate _, .find .apiKeys _, .ok rows =>
        stop = .finished (.ok (.validated none)) ∨
          ∃ key next, rows.head? = some key ∧
            stop = .calling (.save .apiKeys (.whole { key with lastUsedAt := some reading.now }))
              next
    | .validate _, .save .apiKeys _, _ =>
        ∃ workspaceId, stop = .finished (.ok (.validated workspaceId))
    | _, _, _ => False

/-- A request that first checks the role of its user. -/
theorem assertRole_shaped {h : Helpers} {request : Request} {workspaceId : Option Uuid}
    {userId : Uuid} {rest : WorkspaceMember → Svc Reply} (manages : request.manages)
    (continues : ∀ member matching reply reading,
      Goes h request (.find .members matching) reply reading ((rest member).settle reading))
    (later : ∀ member, Shaped (Stands h request) (Goes h request) (rest member)) :
    Shaped (Stands h request) (Goes h request)
      (WorkspacesService.assertRole workspaceId userId managers >>= rest) := by
  unfold WorkspacesService.assertRole WorkspacesService.assertMember Svc.findOne Svc.find
  simp only [Program.bind_assoc]
  refine shaped_call (.checking manages _) (fun error reading => .inl ⟨error, rfl⟩)
    (fun rows reading => ?_) fun rows => ?_
  · cases rows.head? with
    | none => exact .inl ⟨_, rfl⟩
    | some member =>
      simp only [Program.pure_eq, Program.ret_bind]
      by_cases holds : managers.contains member.role
      · rw [if_pos holds]
        exact continues member _ _ reading
      · rw [if_neg holds]
        exact .inl ⟨_, rfl⟩
  · cases rows.head? with
    | none => trivial
    | some member =>
      simp only [Program.pure_eq, Program.ret_bind]
      by_cases holds : managers.contains member.role
      · rw [if_pos holds]
        exact later member
      · rw [if_neg holds]
        trivial

theorem create_shaped (h : Helpers) (workspaceId : Option Uuid) (userId : Uuid)
    (dto : CreateApiKeyDto) :
    Shaped (Stands h (.create workspaceId userId dto)) (Goes h (.create workspaceId userId dto))
      ((Request.create workspaceId userId dto).program h) := by
  simp only [Request.program, ApiKeysService.create, Program.bind_assoc]
  refine assertRole_shaped trivial (fun member matching reply reading => ?_)
    fun member reading => ?_
  · refine .inr ⟨_, _, rfl, fun draft drafted => ?_⟩
    obtain ⟨_, _, rfl⟩ := Option.map_eq_some_iff.mp drafted
    exact fun input => ⟨rfl, rfl⟩
  · exact shaped_call (.inserting _) (fun error reading => .inl ⟨error, rfl⟩)
      (fun row reading => .inr ⟨_, rfl⟩) fun row => trivial

theorem remove_shaped (h : Helpers) (id : Uuid) (workspaceId : Option Uuid) (userId : Uuid) :
    Shaped (Stands h (.remove id workspaceId userId)) (Goes h (.remove id workspaceId userId))
      ((Request.remove id workspaceId userId).program h) := by
  have own (key : ApiKey)
      (matching : (key.id == id && Svc.whereIs workspaceId key.workspaceId) = true) : key.id = id :=
    beq_iff_eq.mp (Bool.and_eq_true_iff.mp matching).1
  simp only [Request.program, ApiKeysService.remove, Svc.findOne, Svc.find, Program.bind_assoc]
  refine assertRole_shaped trivial (fun member matching reply reading => ?_) fun member => ?_
  · exact .inr ⟨_, _, rfl, own⟩
  refine shaped_call (.finding own) (fun error reading => .inl ⟨error, rfl⟩)
    (fun rows reading => ?_) fun rows => ?_
  · cases found : rows.head? with
    | none => exact .inl ⟨_, rfl⟩
    | some key => exact .inr ⟨key, _, found, rfl⟩
  · cases rows.head? with
    | none => trivial
    | some key =>
      simp only [Program.pure_eq, Program.ret_bind, Svc.remove, Program.bind_assoc]
      exact shaped_call (.removing key) (fun error reading => .inl ⟨error, rfl⟩)
        (fun _ reading => .inr ⟨_, rfl⟩) fun _ => trivial

theorem validate_shaped (h : Helpers) (rawKey : String) :
    Shaped (Stands h (.validate rawKey)) (Goes h (.validate rawKey))
      ((Request.validate rawKey).program h) := by
  simp only [Request.program, ApiKeysService.validate, Svc.findOne, Svc.find, Program.bind_assoc]
  refine shaped_call (.looking rawKey) (fun error reading => .inl ⟨error, rfl⟩)
    (fun rows reading => ?_) fun rows => ?_
  · cases found : rows.head? with
    | none => exact .inr (.inl rfl)
    | some key =>
      simp only [Program.pure_eq, Program.ret_bind]
      by_cases inactive : key.isActive = false
      · rw [if_pos inactive]
        exact .inr (.inl rfl)
      rw [if_neg inactive]
      simp only [Svc.now, Program.ambient_bind, Program.ret_bind, Program.settle_ambient]
      by_cases expired : (key.expiresAt.any fun expiresAt => expiresAt < reading.now) = true
      · rw [if_pos expired]
        exact .inr (.inl rfl)
      · rw [if_neg expired]
        exact .inr (.inr ⟨key, _, found, rfl⟩)
  · cases rows.head? with
    | none => trivial
    | some key =>
      simp only [Program.pure_eq, Program.ret_bind]
      by_cases inactive : key.isActive = false
      · rw [if_pos inactive]
        trivial
      rw [if_neg inactive]
      rw [Program.bind_assoc]
      refine shaped_now fun now => ?_
      by_cases expired : (key.expiresAt.any fun expiresAt => expiresAt < now) = true
      · rw [if_pos expired]
        trivial
      rw [if_neg expired]
      simp only [Program.bind_assoc]
      refine shaped_now fun now => ?_
      exact shaped_call (.touching rawKey _) (fun error reading => .inl ⟨error, rfl⟩)
        (fun _ reading => .inr ⟨_, rfl⟩) fun _ => trivial

theorem program_shaped (h : Helpers) (request : Request) :
    Shaped (Stands h request) (Goes h request) (request.program h) := by
  cases request with
  | create workspaceId userId dto => exact create_shaped h workspaceId userId dto
  | remove id workspaceId userId => exact remove_shaped h id workspaceId userId
  | validate rawKey => exact validate_shaped h rawKey

/-- A request begins with a search. -/
theorem program_begins (h : Helpers) (request : Request) (reading : Input) :
    ∃ call next, (request.program h).settle reading = .calling call next ∧ call.reads = true := by
  cases request <;> exact ⟨_, _, rfl, rfl⟩

/-- The key a request in flight is about to write or to delete. -/
def carried : Call → Option ApiKey
  | .save .apiKeys entity => some entity.row
  | .remove .apiKeys key => some key
  | _ => none

/-- The row a request in flight is about to insert. -/
def drafted : Call → Option (Input → ApiKey)
  | .insert .apiKeys draft => draft
  | _ => none

theorem reads_plain {call : Call} (reads : call.reads = true) :
    carried call = none ∧ drafted call = none := by
  cases call <;> first | exact ⟨rfl, rfl⟩ | cases reads

/-- **What a request waits at next**: another search, the insert of a new key, or a write of a
stored key. -/
theorem goes_next {h : Helpers} {request : Request} {call next : Call} {input : Input}
    {store : Store} {rest : Except Err (Resp next) → Svc Reply} (here : Stands h request call)
    (goes : Goes h request call (exec call input store).1 input (.calling next rest)) :
    call.reads = true ∧
      (next.reads = true ∨
        (∃ draft, next = .insert .apiKeys draft ∧
          ∀ draft', draft = some draft' → Drafts h (drawn input) draft') ∨
        ∃ key ∈ store.db .apiKeys, ∃ touched, touched.id = key.id ∧ touched.keyHash = key.keyHash ∧
          ((request.manages ∧ next = .remove .apiKeys touched) ∨
            ∃ rawKey, request = .validate rawKey ∧ key.keyHash = h.sha256 rawKey ∧
              next = .save .apiKeys (.whole touched))) := by
  obtain ⟨_, ends⟩ | goes := goes
  · cases ends
  cases here with
  | checking manages matching =>
    refine ⟨rfl, ?_⟩
    cases request with
    | create workspaceId userId dto =>
      obtain ⟨draft, _, stops, drafts⟩ := goes
      cases stops
      exact .inr (.inl ⟨draft, rfl, drafts⟩)
    | remove id workspaceId userId =>
      obtain ⟨matching, _, stops, _⟩ := goes
      cases stops
      exact .inl rfl
    | validate rawKey => exact manages.elim
  | inserting draft =>
    obtain ⟨_, ends⟩ := goes
    cases ends
  | @finding id workspaceId userId matching own =>
    obtain ⟨_, failed⟩ | found := exec_find .apiKeys matching input store
    · rw [failed] at goes
      exact goes.elim
    · rw [found] at goes
      obtain ⟨key, _, head, stops⟩ := goes
      cases stops
      have member := (List.mem_filter.mp (List.mem_of_head? head)).1
      exact ⟨rfl, .inr (.inr ⟨key, member, key, rfl, rfl, .inl ⟨trivial, rfl⟩⟩)⟩
  | removing key =>
    obtain ⟨_, ends⟩ := goes
    cases ends
  | looking rawKey =>
    obtain ⟨_, failed⟩ | found := exec_find .apiKeys (fun key => key.keyHash == h.sha256 rawKey)
      input store
    · rw [failed] at goes
      exact goes.elim
    · rw [found] at goes
      obtain ends | ⟨key, _, head, stops⟩ := goes
      · cases ends
      cases stops
      obtain ⟨member, same⟩ := List.mem_filter.mp (List.mem_of_head? head)
      exact ⟨rfl, .inr (.inr ⟨key, member, { key with lastUsedAt := some input.now }, rfl, rfl,
        .inr ⟨rawKey, rfl, beq_iff_eq.mp same, rfl⟩⟩)⟩
  | touching rawKey key =>
    obtain ⟨_, ends⟩ := goes
    cases ends

/-- **The keys after a call**: those before, the one it carries, or the one it inserts. -/
theorem exec_keys {h : Helpers} {request : Request} {call : Call} (here : Stands h request call)
    (input : Input) (store : Store) :
    (∀ key ∈ (exec call input store).2.db .apiKeys,
      key ∈ store.db .apiKeys ∨ ∃ rawKey, request = .validate rawKey ∧ carried call = some key) ∨
    ∃ draft, drafted call = some draft ∧
      (exec call input store).2.db .apiKeys = store.db .apiKeys ++ [draft input] := by
  cases here with
  | checking manages matching =>
    rw [exec_reads rfl]
    exact .inl fun key member => .inl member
  | inserting draft =>
    obtain ⟨_, failed⟩ | ⟨draft, _, rfl, _, inserted⟩ := exec_insert .apiKeys draft input store
    · rw [failed]
      exact .inl fun key member => .inl member
    · rw [inserted]
      refine .inr ⟨draft, rfl, ?_⟩
      show store.db.push .apiKeys (draft input) .apiKeys = _
      rw [Db.push, Db.set_same]
  | finding own =>
    rw [exec_reads rfl]
    exact .inl fun key member => .inl member
  | removing key =>
    refine .inl fun other member => .inl ?_
    obtain ⟨_, _, _, failed⟩ | performed := exec_cases (.remove .apiKeys key) input store
    · rwa [failed] at member
    · rw [performed] at member
      simp only [perform, Db.remove, Db.erase, Db.set_same] at member
      exact (List.mem_filter.mp member).1
  | looking rawKey =>
    rw [exec_reads rfl]
    exact .inl fun key member => .inl member
  | touching rawKey key =>
    refine .inl fun other member => ?_
    obtain before | rfl := exec_save_rows .apiKeys key input store other member
    · exact .inl before
    · exact .inr ⟨rawKey, rfl, rfl⟩

/-! ### Keys are drawn once -/

/-- The ids of the first keys, and those that can have been drawn. -/
def ids (start : Store) (past : List Move) : List Uuid :=
  (start.db .apiKeys).map ApiKey.id ++ past.map fun move => move.input.ids 0

/-- The hashes of the first keys, and those of the keys that can have been drawn. -/
def hashes (h : Helpers) (start : Store) (past : List Move) : List String :=
  (start.db .apiKeys).map ApiKey.keyHash ++ past.map fun move => h.sha256 (drawn move.input)

/-- No id is drawn twice, and no two keys have one hash. -/
def Fresh (h : Helpers) (start : Store) (moves : List Move) : Prop :=
  (ids start moves).Nodup ∧ (hashes h start moves).Nodup

/-- The move draws what was not drawn before. -/
def Draws (h : Helpers) (start : Store) (past : List Move) (move : Move) : Prop :=
  move.input.ids 0 ∉ ids start past ∧ h.sha256 (drawn move.input) ∉ hashes h start past

theorem Fresh.draws {h : Helpers} {start : Store} {moves : List Move}
    (fresh : Fresh h start moves) :
    ∀ before move after, moves = before ++ move :: after → Draws h start before move := by
  rintro before move after rfl
  obtain ⟨unique_ids, unique_hashes⟩ := fresh
  unfold ids at unique_ids
  unfold hashes at unique_hashes
  rw [List.map_append, ← List.append_assoc, List.map_cons, List.nodup_append] at *
  exact ⟨fun before => unique_ids.2.2 _ before _ List.mem_cons_self rfl,
    fun before => unique_hashes.2.2 _ before _ List.mem_cons_self rfl⟩

theorem Fresh.first {h : Helpers} {start : Store} {moves later : List Move}
    (fresh : Fresh h start (moves ++ later)) : Fresh h start moves := by
  obtain ⟨unique_ids, unique_hashes⟩ := fresh
  unfold ids at unique_ids
  unfold hashes at unique_hashes
  rw [List.map_append, ← List.append_assoc] at unique_ids unique_hashes
  exact ⟨(List.nodup_append.mp unique_ids).1, (List.nodup_append.mp unique_hashes).1⟩

section Past

variable {h : Helpers} {start : Store} {past : List Move} {move : Move}

theorem ids_past {id : Uuid} (member : id ∈ ids start past) : id ∈ ids start (past ++ [move]) := by
  unfold ids at member ⊢
  rw [List.map_append, ← List.append_assoc]
  exact List.mem_append_left _ member

theorem hashes_past {hash : String} (member : hash ∈ hashes h start past) :
    hash ∈ hashes h start (past ++ [move]) := by
  unfold hashes at member ⊢
  rw [List.map_append, ← List.append_assoc]
  exact List.mem_append_left _ member

theorem ids_last : move.input.ids 0 ∈ ids start (past ++ [move]) := by
  simp [ids]

theorem hashes_last : h.sha256 (drawn move.input) ∈ hashes h start (past ++ [move]) := by
  simp [hashes]

end Past

/-! ### The invariant of all runs -/

/-- What identifies a key: its id and its hash. -/
def ApiKey.pair (key : ApiKey) : Uuid × String := (key.id, key.keyHash)

section Invariant

variable (h : Helpers) (start : Store) (issued : List (Uuid × String)) (past : List Move)

/-- The invariant of a request in flight: it carries an issued key, which a validation has found
under its raw key, or drafts a new one. -/
structure Sound (request : Request) (call : Call) : Prop where
  carried : ∀ key, carried call = some key → ApiKey.pair key ∈ issued ∧
    ∀ rawKey, request = .validate rawKey → key.keyHash = h.sha256 rawKey
  drafted : ∀ draft, drafted call = some draft → ∃ hash ∈ hashes h start past,
    hash ∉ issued.map Prod.snd ∧ ∀ input, (draft input).id = input.ids 0 ∧
      (draft input).keyHash = hash

/-- Two calls in flight draft different keys. -/
def Apart (call other : Call) : Prop :=
  ∀ draft draft', drafted call = some draft → drafted other = some draft' →
    ∀ input input', (draft input).keyHash ≠ (draft' input').keyHash

/-- The invariant of a pool: the keys ever issued have different ids and different hashes. -/
structure Consistent (pool : Pool) : Prop where
  ids : (issued.map Prod.fst).Nodup
  hashes : (issued.map Prod.snd).Nodup
  drawn : ∀ pair ∈ issued, pair.1 ∈ ApiKeys.ids start past ∧ pair.2 ∈ ApiKeys.hashes h start past
  rows : ∀ key ∈ pool.shared.db .apiKeys, ApiKey.pair key ∈ issued
  sound : pool.Attached fun _ request program _ =>
    ∀ call next, program = .call call next → Sound h start issued past request call
  apart : pool.Compatible fun _ _ call _ _ other => Apart call other

end Invariant

section Steps

variable {h : Helpers} {start : Store} {issued : List (Uuid × String)} {past : List Move}
  {move : Move}

theorem apart_symm {call other : Call} (apart : Apart call other) : Apart other call :=
  fun draft draft' first second input input' same =>
    apart draft' draft second first input' input same.symm

theorem sound_later {request : Request} {call : Call}
    (sound : Sound h start issued past request call) :
    Sound h start issued (past ++ [move]) request call := by
  refine ⟨sound.carried, fun draft drafted => ?_⟩
  obtain ⟨hash, member, fresh, drafts⟩ := sound.drafted draft drafted
  exact ⟨hash, hashes_past member, fresh, drafts⟩

theorem sound_plain {request : Request} {call : Call}
    (plain : carried call = none ∧ drafted call = none) : Sound h start issued past request call :=
  ⟨fun key same => by simp [plain.1] at same, fun draft same => by simp [plain.2] at same⟩

/-- Where no key is issued. -/
theorem consistent_place {pool : Pool} {slot : Nat} {request : Request} {store : Store}
    {stop : Stop Err Input Call Resp Reply} (consistent : Consistent h start issued past pool)
    (rows : ∀ key ∈ store.db .apiKeys, ApiKey.pair key ∈ issued)
    (sound : ∀ call next, stop = .calling call next →
      Sound h start issued (past ++ [move]) request call)
    (apart : ∀ call next, stop = .calling call next → ∀ other waiting, other ≠ slot →
      pool.thread other = some waiting → Apart call waiting.request) :
    Consistent h start issued (past ++ [move])
      ((system h).place slot request stop store pool.thread) := by
  refine ⟨consistent.ids, consistent.hashes, fun pair member => ?_, ?_, ?_, ?_⟩
  · obtain ⟨id, hash⟩ := consistent.drawn pair member
    exact ⟨ids_past id, hashes_past hash⟩
  · rw [system, services_shared]
    exact rows
  · refine (system h).attached_place (fun call next stops => ?_)
      fun other waiting _ found call next same => ?_
    · intro other rest same
      cases same
      exact sound call next stops
    · exact sound_later (consistent.sound other waiting found call next same)
  · exact (system h).compatible_place apart_symm consistent.apart apart

/-- Where a key is issued: the one the request has drafted, with an id that is drawn. -/
theorem consistent_issue {pool : Pool} {slot : Nat} {request : Request} {store : Store}
    {key : ApiKey}
    {result : Except Err Reply} (consistent : Consistent h start issued past pool)
    (id : key.id = move.input.ids 0) (new : key.id ∉ ids start past)
    (drawn : key.keyHash ∈ hashes h start past) (unissued : key.keyHash ∉ issued.map Prod.snd)
    (rows : ∀ other ∈ store.db .apiKeys, ApiKey.pair other ∈ issued ∨ other = key)
    (apart : ∀ other waiting, other ≠ slot → pool.thread other = some waiting → ∀ draft,
      drafted waiting.request = some draft → ∀ input, (draft input).keyHash ≠ key.keyHash) :
    Consistent h start (ApiKey.pair key :: issued) (past ++ [move])
      ((system h).place slot request (.finished result) store pool.thread) := by
  refine ⟨?_, ?_, fun pair member => ?_, ?_, ?_, ?_⟩
  · rw [List.map_cons, List.nodup_cons]
    refine ⟨fun member => ?_, consistent.ids⟩
    obtain ⟨pair, before, same⟩ := List.mem_map.mp member
    rw [show key.id = pair.1 from same.symm] at new
    exact new (consistent.drawn pair before).1
  · rw [List.map_cons, List.nodup_cons]
    exact ⟨unissued, consistent.hashes⟩
  · rcases List.mem_cons.mp member with rfl | before
    · exact ⟨by rw [ApiKey.pair, id]; exact ids_last, hashes_past drawn⟩
    · obtain ⟨first, second⟩ := consistent.drawn pair before
      exact ⟨ids_past first, hashes_past second⟩
  · rw [system, services_shared]
    intro other member
    obtain before | rfl := rows other member
    · exact List.mem_cons_of_mem _ before
    · exact List.mem_cons_self
  · refine (system h).attached_place (fun _ _ stops => by cases stops)
      fun other waiting different found call next same => ?_
    obtain ⟨carries, drafts⟩ := consistent.sound other waiting found call next same
    refine ⟨fun touched here => (carries touched here).imp_left (List.mem_cons_of_mem _),
      fun draft here => ?_⟩
    obtain ⟨hash, member, fresh, all⟩ := drafts draft here
    refine ⟨hash, hashes_past member, fun issued_now => ?_, all⟩
    rw [List.map_cons, List.mem_cons] at issued_now
    obtain same_hash | before := issued_now
    · cases same
      exact apart other waiting different found draft here move.input
        ((all move.input).2.trans same_hash)
    · exact fresh before
  · exact (system h).compatible_place apart_symm consistent.apart fun _ _ stops => by cases stops

/-- The call a request goes on to is sound: what it carries is stored, what it drafts is new. -/
theorem next_sound {pool : Pool} {request : Request} {call next : Call}
    {rest : Except Err (Resp next) → Svc Reply} (draws : Draws h start past move)
    (consistent : Consistent h start issued past pool) (here : Stands h request call)
    (goes : Goes h request call (exec call move.input pool.shared).1 move.input
      (.calling next rest)) : Sound h start issued (past ++ [move]) request next := by
  obtain ⟨_, reads | ⟨draft, rfl, drafts⟩ | ⟨key, member, touched, id, hash, writes⟩⟩ :=
    goes_next here goes
  · exact sound_plain (reads_plain reads)
  · refine ⟨nofun, fun draft' same => ⟨_, hashes_last, fun member => ?_, drafts draft' same⟩⟩
    obtain ⟨pair, before, same⟩ := List.mem_map.mp member
    exact draws.2 (same ▸ (consistent.drawn pair before).2)
  · have issued_key : ApiKey.pair touched ∈ issued := by
      rw [ApiKey.pair, id, hash]
      exact consistent.rows key member
    rcases writes with ⟨manages, rfl⟩ | ⟨rawKey, label, found, rfl⟩
    · refine ⟨fun key same => ?_, nofun⟩
      cases same
      refine ⟨issued_key, fun rawKey validates => ?_⟩
      rw [validates] at manages
      exact manages.elim
    · refine ⟨fun key same => ?_, nofun⟩
      cases same
      refine ⟨issued_key, fun other validates => ?_⟩
      cases label.symm.trans validates
      exact hash.trans found

/-- The call a request goes on to drafts no key that another request has drafted. -/
theorem next_apart {store : Store} {request other : Request} {call next waiting : Call}
    {rest : Except Err (Resp next) → Svc Reply} (draws : Draws h start past move)
    (here : Stands h request call)
    (goes : Goes h request call (exec call move.input store).1 move.input (.calling next rest))
    (sound : Sound h start issued past other waiting) : Apart next waiting := by
  intro draft draft' drafts drafts' input other' same
  obtain ⟨hash, before, _, all⟩ := sound.drafted draft' drafts'
  obtain ⟨_, reads | ⟨mine, rfl, news⟩ | ⟨_, _, _, _, _, ⟨_, rfl⟩ | ⟨_, _, _, rfl⟩⟩⟩ :=
    goes_next here goes
  · simp [(reads_plain reads).2] at drafts
  · have new := draws.2
    rw [show h.sha256 (drawn move.input) = _ from
      (news draft drafts input).2.symm.trans (same.trans (all other').2)] at new
    exact new before
  · cases drafts
  · cases drafts

/-- A request that inserts a key ends. -/
theorem drafted_ends {request : Request} {call : Call} {input : Input} {store : Store}
    {stop : Stop Err Input Call Resp Reply} {draft : Input → ApiKey} (here : Stands h request call)
    (goes : Goes h request call (exec call input store).1 input stop)
    (drafts : drafted call = some draft) : ∃ result, stop = .finished result := by
  cases stop with
  | finished result => exact ⟨result, rfl⟩
  | calling call next =>
    have plain := (reads_plain (goes_next here goes).1).2
    rw [plain] at drafts
    cases drafts

/-- **Every move keeps the invariant**, and issues at most one key. -/
theorem consistent_act {pool pool' : Pool} (draws : Draws h start past move)
    (shaped : pool.Shaped (Stands h) (Goes h)) (consistent : Consistent h start issued past pool)
    (moved : (system h).act pool move = some pool') :
    ∃ issued', issued ⊆ issued' ∧ Consistent h start issued' (past ++ [move]) pool' := by
  obtain ⟨slot, request, input, rfl, _, rfl⟩ |
    ⟨slot, input, thread, stop, rfl, busy, here, goes, _, rfl⟩ := services_act shaped moved
  · obtain ⟨call, next, begins, reads⟩ := program_begins h request input
    rw [begins]
    refine ⟨issued, List.Subset.refl _, consistent_place consistent consistent.rows ?_ ?_⟩
    · intro other rest stops
      cases stops
      exact sound_plain (reads_plain reads)
    · intro other rest stops other waiting _ _ draft draft' drafts
      cases stops
      simp [(reads_plain reads).2] at drafts
  have own := consistent.sound slot thread busy _ _ rfl
  obtain rows | ⟨draft, drafts, rows⟩ := exec_keys here input pool.shared
  · refine ⟨issued, List.Subset.refl _, consistent_place consistent (fun key member => ?_) ?_ ?_⟩
    · obtain before | ⟨_, _, carries⟩ := rows key member
      · exact consistent.rows key before
      · exact (own.carried key carries).1
    · rintro call next rfl
      exact next_sound draws consistent here goes
    · rintro call next rfl other waiting different found
      exact next_apart draws here goes (consistent.sound other waiting found _ _ rfl)
  · obtain ⟨hash, member, fresh, all⟩ := own.drafted draft drafts
    obtain ⟨result, rfl⟩ := drafted_ends here goes drafts
    obtain ⟨id, keyHash⟩ := all input
    refine ⟨ApiKey.pair (draft input) :: issued, List.subset_cons_self _ _,
      consistent_issue consistent id (id ▸ draws.1) (keyHash ▸ member) (keyHash ▸ fresh)
        (fun key here => ?_) fun other waiting different found draft' drafts' input' same => ?_⟩
    · rw [rows, List.mem_append, List.mem_singleton] at here
      exact here.imp_left (consistent.rows key)
    · exact consistent.apart slot other thread waiting (Ne.symm different) busy found draft draft'
        drafts drafts' input input' same.symm

end Steps

/-! ### After the removal -/

/-- No row with the id is stored, and no validation that has loaded it is in flight. -/
structure Gone (id : Uuid) (pool : Pool) : Prop where
  rows : ∀ key ∈ pool.shared.db .apiKeys, key.id ≠ id
  touching : pool.Attached fun _ request program _ => ∀ call next key rawKey,
    program = .call call next → request = .validate rawKey → carried call = some key → key.id ≠ id

/-- The request in flight in the slot is about to delete the key, and no validation in flight has
loaded it. -/
def Undisturbed (key : ApiKey) (pool : Pool) (slot : Nat) : Prop :=
  (∃ thread workspaceId userId, pool.thread slot = some thread ∧
    thread.label = .remove key.id workspaceId userId ∧ thread.request = .remove .apiKeys key) ∧
  ∀ other waiting rawKey loaded, pool.thread other = some waiting →
    waiting.label = .validate rawKey → carried waiting.request = some loaded → loaded.id ≠ key.id

section After

variable {h : Helpers} {start : Store} {issued : List (Uuid × String)} {past : List Move}
  {move : Move} {id : Uuid}

/-- A search for a key that is gone finds nothing to write. -/
theorem next_gone {request : Request} {call next : Call} {input : Input} {store : Store}
    {rest : Except Err (Resp next) → Svc Reply} (rows : ∀ key ∈ store.db .apiKeys, key.id ≠ id)
    (here : Stands h request call)
    (goes : Goes h request call (exec call input store).1 input (.calling next rest))
    {key : ApiKey} (carries : carried next = some key) : key.id ≠ id := by
  obtain ⟨_, reads | ⟨draft, rfl, _⟩ | ⟨stored, member, touched, same, _,
      ⟨_, rfl⟩ | ⟨_, _, _, rfl⟩⟩⟩ :=
    goes_next here goes
  · simp [(reads_plain reads).1] at carries
  · cases carries
  · cases carries
    exact same ▸ rows stored member
  · cases carries
    exact same ▸ rows stored member

/-- **The key stays gone**: an id that was drawn is not drawn again. -/
theorem gone_act {pool pool' : Pool} (drawn : id ∈ ids start past) (draws : Draws h start past move)
    (shaped : pool.Shaped (Stands h) (Goes h)) (consistent : Consistent h start issued past pool)
    (gone : Gone id pool) (moved : (system h).act pool move = some pool') : Gone id pool' := by
  obtain ⟨slot, request, input, rfl, _, rfl⟩ |
    ⟨slot, input, thread, stop, rfl, busy, here, goes, _, rfl⟩ := services_act shaped moved
  · obtain ⟨call, next, begins, reads⟩ := program_begins h request input
    rw [begins]
    refine ⟨gone.rows, (system h).attached_place (fun other rest stops => ?_)
      fun other waiting _ found => gone.touching other waiting found⟩
    cases stops
    intro call next key rawKey same _ carries
    cases same
    simp [(reads_plain reads).1] at carries
  refine ⟨?_, (system h).attached_place (fun other rest stops => ?_)
    fun other waiting _ found => gone.touching other waiting found⟩
  · rw [services_shared]
    intro key member
    obtain rows | ⟨draft, drafts, rows⟩ := exec_keys here input pool.shared
    · obtain before | ⟨rawKey, label, carries⟩ := rows key member
      · exact gone.rows key before
      · exact gone.touching slot thread busy _ _ key rawKey rfl label carries
    · rw [rows, List.mem_append, List.mem_singleton] at member
      obtain before | rfl := member
      · exact gone.rows key before
      · obtain ⟨_, _, _, all⟩ :=
          (consistent.sound slot thread busy _ _ rfl).drafted draft drafts
        intro same
        exact draws.1 ((all input).1 ▸ same ▸ drawn)
  · subst stops
    intro call next key rawKey same _ carries
    cases same
    exact next_gone gone.rows here goes carries

/-- **The removal**: after its call the key is gone. -/
theorem undisturbed_gone {pool pool' : Pool} {slot : Nat} {input : Input} {key : ApiKey}
    (undisturbed : Undisturbed key pool slot) (clear : input.fault = none)
    (shaped : pool.Shaped (Stands h) (Goes h))
    (moved : (system h).act pool (.resume slot input) = some pool') : Gone key.id pool' := by
  obtain ⟨⟨removal, workspaceId, userId, waits, label, request⟩, others⟩ := undisturbed
  obtain ⟨_, _, _, same, _⟩ | ⟨_, _, thread, stop, same, busy, here, goes, _, rfl⟩ :=
    services_act shaped moved
  · cases same
  cases same
  obtain rfl : removal = thread := Option.some.inj (waits.symm.trans busy)
  refine ⟨?_, (system h).attached_place (fun call next stops => ?_)
    fun other waiting _ found call next loaded rawKey same validates carries => ?_⟩
  · rw [services_shared, request, exec_clear _ clear]
    intro other member same
    simp only [perform, Db.remove, Db.erase, Db.set_same] at member
    have kept := (List.mem_filter.mp member).2
    simp [Db.sameKey, Row.key, same] at kept
  · intro other rest loaded rawKey same validates
    rw [label] at validates
    cases validates
  · cases same
    exact others other waiting rawKey loaded found validates carries

/-- A validation of a key that is gone returns null. -/
theorem gone_validate {pool : Pool} {slot : Nat} {rawKey : String} {input : Input}
    {reply : Reply} {key : ApiKey} (hash : h.sha256 rawKey = key.keyHash)
    (issues : ApiKey.pair key ∈ issued) (shaped : pool.Shaped (Stands h) (Goes h))
    (consistent : Consistent h start issued past pool) (gone : Gone key.id pool)
    (ends : (system h).Ends pool slot (.validate rawKey) input (.ok reply)) :
    reply = .validated none := by
  obtain ⟨thread, busy, label, here, goes⟩ := services_ends shaped ends
  have own := consistent.sound slot thread busy _ _ rfl
  have loaded := fun next => gone.touching slot thread busy thread.request next
  obtain ⟨_, ends⟩ | goes := goes
  · cases ends
  rw [label] at own loaded
  have touches (other : ApiKey) (carries : carried thread.request = some other) : False := by
    obtain ⟨issued_other, found⟩ := own.carried other carries
    have same := List.inj_on_of_nodup_map consistent.hashes issued_other issues
      ((found rawKey rfl).trans hash)
    exact loaded _ other rawKey rfl rfl carries (congrArg Prod.fst same)
  generalize thread.request = call at here goes touches
  cases here with
  | checking manages matching => exact manages.elim
  | looking =>
    obtain ⟨_, failed⟩ | found := exec_find .apiKeys (fun key => key.keyHash == h.sha256 rawKey)
      input pool.shared
    · rw [failed] at goes
      exact goes.elim
    · rw [found] at goes
      obtain ends | ⟨_, _, _, ends⟩ := goes
      · cases ends
        rfl
      · cases ends
  | touching _ other => exact (touches other rfl).elim

end After

/-! ### Runs -/

section Runs

variable {h : Helpers} {start : Store}

theorem begins_consistent {moves : List Move} (fresh : Fresh h start moves) :
    Consistent h start ((start.db .apiKeys).map ApiKey.pair) [] (Machine.Pool.idle start) := by
  refine ⟨?_, ?_, fun pair member => ?_, fun key member => List.mem_map_of_mem member, ?_, ?_⟩
  · rw [List.map_map]
    exact (List.nodup_append.mp fresh.1).1
  · rw [List.map_map]
    exact (List.nodup_append.mp fresh.2).1
  · obtain ⟨key, stored, rfl⟩ := List.mem_map.mp member
    exact ⟨List.mem_append_left _ (List.mem_map_of_mem stored),
      List.mem_append_left _ (List.mem_map_of_mem stored)⟩
  · intro slot thread busy
    cases busy
  · intro slot other thread waiting _ busy
    cases busy

theorem shaped_act {pool pool' : Pool} {move : Move} (shaped : pool.Shaped (Stands h) (Goes h))
    (moved : (system h).act pool move = some pool') : pool'.Shaped (Stands h) (Goes h) :=
  (system h).act_everywhere (fun _ request => program_shaped h request) shaped moved

theorem run_consistent {moves : List Move} {pool : Pool} (fresh : Fresh h start moves)
    (reached : (system h).run (Machine.Pool.idle start) moves = some pool) :
    pool.Shaped (Stands h) (Goes h) ∧ ∃ issued, Consistent h start issued moves pool := by
  have step (past : List Move) (pool : Pool) (move : Move) (pool' : Pool)
      (both : pool.Shaped (Stands h) (Goes h) ∧ ∃ issued, Consistent h start issued past pool)
      (draws : Draws h start past move) (moved : (system h).act pool move = some pool') :
      pool'.Shaped (Stands h) (Goes h) ∧
        ∃ issued, Consistent h start issued (past ++ [move]) pool' := by
    obtain ⟨shaped, issued, consistent⟩ := both
    obtain ⟨issued', _, after⟩ := consistent_act draws shaped consistent moved
    exact ⟨shaped_act shaped moved, issued', after⟩
  have begins : Calling.Shaped (Stands h) (Goes h) (Machine.Pool.idle start) ∧
      ∃ issued, Consistent h start issued [] (Machine.Pool.idle start) :=
    ⟨fun _ _ busy => (by cases busy), _, begins_consistent fresh⟩
  have reaches := (system h).run_history begins step fresh.draws reached
  rwa [List.nil_append] at reaches

/-- The invariant of a pool after the removal of a key. -/
def Revoked (h : Helpers) (start : Store) (key : ApiKey) (past : List Move) (pool : Pool) : Prop :=
  pool.Shaped (Stands h) (Goes h) ∧ Gone key.id pool ∧ ∃ issued,
    ApiKey.pair key ∈ issued ∧ Consistent h start issued past pool

theorem revoked_act {past : List Move} {pool pool' : Pool} {move : Move} {key : ApiKey}
    (revoked : Revoked h start key past pool) (draws : Draws h start past move)
    (moved : (system h).act pool move = some pool') :
    Revoked h start key (past ++ [move]) pool' := by
  obtain ⟨shaped, gone, issued, issues, consistent⟩ := revoked
  obtain ⟨issued', grows, after⟩ := consistent_act draws shaped consistent moved
  have drawn : key.id ∈ ids start past := (consistent.drawn _ issues).1
  exact ⟨shaped_act shaped moved, gone_act drawn draws shaped consistent gone moved, issued',
    grows issues, after⟩

end Runs

/-- **A removed key is revoked for good**, when its removal is undisturbed: in every later state no
row with its id is stored, and a validation of its raw value that returns returns null. -/
theorem revocation_final (h : Helpers) (start : Store) (moves later : List Move) (slot : Nat)
    (input : Input) (pool pool' pool'' : Pool) (key : ApiKey)
    (fresh : Fresh h start (moves ++ .resume slot input :: later))
    (reached : (system h).run (Machine.Pool.idle start) moves = some pool)
    (undisturbed : Undisturbed key pool slot) (clear : input.fault = none)
    (moved : (system h).act pool (.resume slot input) = some pool')
    (reached' : (system h).run pool' later = some pool'') :
    (∀ row ∈ pool''.shared.db .apiKeys, row.id ≠ key.id) ∧
    ∀ slot rawKey input reply, h.sha256 rawKey = key.keyHash →
      (system h).Ends pool'' slot (.validate rawKey) input (.ok reply) →
        reply = .validated none := by
  obtain ⟨shaped, issued, consistent⟩ := run_consistent fresh.first reached
  obtain ⟨⟨thread, _, _, busy, _, request⟩, _⟩ := id undisturbed
  have issues : ApiKey.pair key ∈ issued :=
    ((consistent.sound slot thread busy _ _ rfl).carried key (by rw [request]; rfl)).1
  have draws := fresh.draws moves (.resume slot input) later rfl
  obtain ⟨issued', grows, after⟩ := consistent_act draws shaped consistent moved
  have revoked : Revoked h start key (moves ++ [.resume slot input]) pool' :=
    ⟨shaped_act shaped moved, undisturbed_gone undisturbed clear shaped moved, issued',
      grows issues, after⟩
  have kept := (system h).run_history revoked (fun _ _ _ _ => revoked_act)
    (fun before move after same => fresh.draws (moves ++ [.resume slot input] ++ before) move after
      (by simp [same])) reached'
  obtain ⟨shaped, gone, _, issues, consistent⟩ := kept
  exact ⟨gone.rows, fun slot rawKey input reply hash ends =>
    gone_validate hash issues shaped consistent gone ends⟩

namespace Example

/-- An input of a move: ids and random bytes show its number. -/
def at_ (number : Nat) : Input :=
  { WaAutomation.Example.fine with
    now := number, ids := fun _ => toString number, bytes := toString number }

/-- A workspace with its owner. -/
def start : Store :=
  ⟨fun | .members => [⟨"w", "u", "owner"⟩] | _ => [], [], 0, [], fun _ _ => none⟩

def helpers : Helpers := WaAutomation.Example.helpers

/-- The creation of a key. -/
def creation : List Move :=
  [.start 0 (.create (some "w") "u" ⟨"key", none⟩) (at_ 1), .resume 0 (at_ 2), .resume 0 (at_ 3)]

/-- A removal of the key, up to its deletion. -/
def removal : List Move :=
  [.start 1 (.remove "3" (some "w") "u") (at_ 4), .resume 1 (at_ 5), .resume 1 (at_ 6)]

/-- A validation of the key that has loaded it. -/
def validation : List Move :=
  [.start 2 (.validate "wa_2") (at_ 7), .resume 2 (at_ 8)]

/-- The key. -/
def key : ApiKey := ⟨"3", "w", "key", "wa_2", "wa_2", none, none, true⟩

end Example

theorem Example.undisturbed {pool : Pool}
    (reached : (system Example.helpers).run (Machine.Pool.idle Example.start)
      (Example.creation ++ Example.removal) = some pool) : Undisturbed Example.key pool 1 := by
  have shows (check : Pool → Bool)
      (checked : ((system Example.helpers).run (Machine.Pool.idle Example.start)
        (Example.creation ++ Example.removal)).all check = true) : check pool = true := by
    rw [reached] at checked
    exact checked
  have ended := shows (fun pool => (pool.thread 0).isNone) rfl
  have quiet (other : Nat) (first : other ≠ 0) (second : other ≠ 1) :
      pool.thread other = none := by
    have unused : ∀ move ∈ Example.creation ++ Example.removal, move.slot ≠ other := by
      simp [Example.creation, Example.removal, Machine.Move.slot, Ne.symm first, Ne.symm second]
    rw [(system Example.helpers).run_other unused reached]
    rfl
  refine ⟨?_, fun other waiting rawKey loaded found validates _ => ?_⟩
  · cases reached
    exact ⟨_, _, _, rfl, rfl, rfl⟩
  by_cases first : other = 0
  · rw [first, Option.isNone_iff_eq_none.mp ended] at found
    cases found
  by_cases second : other = 1
  · subst second
    cases reached
    cases found
    cases validates
  · rw [quiet other first second] at found
    cases found

theorem revocation_final_example :
    ∃ pool pool' pool'' reply,
      (system Example.helpers).run (Machine.Pool.idle Example.start)
        (Example.creation ++ Example.removal) = some pool ∧
      (system Example.helpers).act pool (.resume 1 (Example.at_ 9)) = some pool' ∧
      (system Example.helpers).run pool' [.start 3 (.validate "wa_2") (Example.at_ 10)] =
        some pool'' ∧
      (system Example.helpers).Ends pool'' 3 (.validate "wa_2") (Example.at_ 11) (.ok reply) ∧
      reply = .validated none := by
  refine ⟨_, _, _, _, rfl, rfl, rfl, ⟨_, rfl, rfl, rfl⟩, ?_⟩
  refine (revocation_final Example.helpers Example.start (Example.creation ++ Example.removal)
    [.start 3 (.validate "wa_2") (Example.at_ 10)] 1 (Example.at_ 9) _ _ _ Example.key
    (by constructor <;> decide) rfl (Example.undisturbed rfl) rfl rfl rfl).2 3 "wa_2"
    (Example.at_ 11) _ rfl ⟨_, rfl, rfl, rfl⟩

/-- **A revocation undone**: a validation loads the key, the key is deleted, and the validation
saves it. -/
theorem revocation_undone :
    ∃ pool pool' pool'' workspaceId,
      (system Example.helpers).run (Machine.Pool.idle Example.start)
        (Example.creation ++ Example.removal ++ Example.validation) = some pool ∧
      (system Example.helpers).act pool (.resume 1 (Example.at_ 9)) = some pool' ∧
      (pool'.thread 1).isNone ∧ Fresh Example.helpers Example.start (Example.creation ++
        Example.removal ++ Example.validation ++ .resume 1 (Example.at_ 9) ::
          [.resume 2 (Example.at_ 10), .start 3 (.validate "wa_2") (Example.at_ 11),
            .resume 3 (Example.at_ 12)]) ∧
      (system Example.helpers).run pool' [.resume 2 (Example.at_ 10),
        .start 3 (.validate "wa_2") (Example.at_ 11), .resume 3 (Example.at_ 12)] = some pool'' ∧
      (∃ row ∈ pool''.shared.db .apiKeys, row.id = Example.key.id) ∧
      (system Example.helpers).Ends pool'' 3 (.validate "wa_2") (Example.at_ 13)
        (.ok (.validated (some workspaceId))) := by
  refine ⟨_, _, _, _, rfl, rfl, rfl, by constructor <;> decide, rfl, ⟨_, List.mem_cons_self, rfl⟩,
    _, rfl, rfl, rfl⟩

end WaAutomation.ApiKeys
