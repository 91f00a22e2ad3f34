/-
**Where an accepted API key comes from.**

A validation looks a raw key up by its hash. Whatever creations, removals and other validations are
in flight, a key that is accepted for a workspace was stored when the run began or was created by a
request of an owner or admin of this workspace, with a raw key that was drawn for it; and it was
active, and not expired when it was looked up.

* `Created` and `Issued` say where a row comes from; a row keeps everything but the time of its last
  use;
* `Careful` lists what the requests do with keys, and `program_careful` goes through them;
* `validated_issued` reads the result off the rule for runs of such programs.
-/

import WaAutomation.Auth.ApiKeys
import WaAutomation.Tenancy.Authority

set_option linter.unusedSectionVars false

namespace WaAutomation.ApiKeys

open Library Program

/-! ### Issued keys -/

section Keys

variable (h : Helpers) (start : Store) (moves : List Move)

/-- A creation of the run issued the key: it was started for the workspace by one of its owners and
admins, and drew the raw key. -/
structure Created (key : ApiKey) : Prop where
  started : ∃ slot input userId dto,
    Machine.Move.start slot (.create (some key.workspaceId) userId dto) input ∈ moves ∧
    (∃ member ∈ start.db .members, member.workspaceId = key.workspaceId ∧
      member.userId = userId ∧ member.role ∈ managers) ∧
    key.expiresAt = (orNull dto.expiresAt).map h.parseDate
  drawn : ∃ move ∈ moves, key.keyHash = h.sha256 (drawn move.input)
  active : key.isActive = true

/-- The row is one of the first keys or one that was created, but for the time of its last use. -/
def Issued (key : ApiKey) : Prop :=
  ∃ origin : ApiKey, (origin ∈ start.db .apiKeys ∨ Created h start moves origin) ∧
    key = { origin with lastUsedAt := key.lastUsedAt }

/-- The rows a run shows. -/
def Known : (table : Table) → Row table → Prop
  | .apiKeys, key => Issued h start moves key
  | .members, member => member ∈ start.db .members
  | _, _ => True

/-- The calls of the requests: they write issued keys only, and no membership. -/
inductive Careful : Call → Prop
  | looking {call : Call} (reads : call.reads = true) : Careful call
  | creating {draft : Option (Input → ApiKey)}
      (created : ∀ draft', draft = some draft' → ∀ input, Issued h start moves (draft' input)) :
      Careful (.insert .apiKeys draft)
  | touching {key : ApiKey} (issued : Issued h start moves key) :
      Careful (.save .apiKeys (.whole key))
  | removing (key : ApiKey) : Careful (.remove .apiKeys key)

/-- What a validation that accepts a key has found. -/
def Accepts : Request → Reply → Prop
  | .validate rawKey, .validated (some workspaceId) => ∃ key input, Issued h start moves key ∧
      key.keyHash = h.sha256 rawKey ∧ key.workspaceId = workspaceId ∧ key.isActive = true ∧
      Inputs moves input ∧ ∀ expiresAt ∈ key.expiresAt, input.now ≤ expiresAt
  | _, _ => True

end Keys

section Programs

variable {h : Helpers} {start : Store} {moves : List Move}

theorem issued_created {key : ApiKey} (created : Created h start moves key) :
    Issued h start moves key :=
  ⟨key, .inr created, rfl⟩

theorem issued_touched {key : ApiKey} (issued : Issued h start moves key) (now : Option Time) :
    Issued h start moves { key with lastUsedAt := now } := by
  obtain ⟨origin, source, same⟩ := issued
  refine ⟨origin, source, ?_⟩
  rw [same]

theorem role_told {workspaceId : Option Uuid} {userId : Uuid} :
    (WorkspacesService.assertRole workspaceId userId managers).Told (Inputs moves)
      (Shows (Known h start moves)) (Careful h start moves) fun member =>
        member ∈ start.db .members ∧ Guard.admits workspaceId userId member = true ∧
          member.role ∈ managers :=
  told_given (Authority.role_given (fun _ => .looking rfl) managers)

theorem create_told {slot : Nat} {input : Input} {workspaceId : Option Uuid} {userId : Uuid}
    {dto : CreateApiKeyDto}
    (made : Machine.Move.start slot (.create workspaceId userId dto) input ∈ moves) :
    (ApiKeysService.create h workspaceId userId dto).Told (Inputs moves)
      (Shows (Known h start moves)) (Careful h start moves) fun _ => True := by
  refine told_then role_told fun member checked => told_bind fun reading real => ?_
  obtain ⟨stored, admitted, role⟩ := checked
  refine told_bind (told_given (given_perform (.creating fun draft same input' => ?_)
    fun _ _ => trivial))
  obtain ⟨w, rfl, rfl⟩ := Option.map_eq_some_iff.mp same
  obtain ⟨own, user⟩ := Bool.and_eq_true_iff.mp admitted
  have own : member.workspaceId = w := beq_iff_eq.mp own
  obtain ⟨move, here, rfl⟩ := real
  exact issued_created ⟨⟨slot, input, userId, dto, made,
    ⟨member, stored, own, beq_iff_eq.mp user, role⟩, rfl⟩, ⟨move, here, rfl⟩, rfl⟩

theorem remove_told {id : Uuid} {workspaceId : Option Uuid} {userId : Uuid} :
    (ApiKeysService.remove id workspaceId userId).Told (Inputs moves)
      (Shows (Known h start moves)) (Careful h start moves) fun _ => True := by
  refine told_then role_told fun member _ => told_given ?_
  refine given_bind (given_bind (given_perform (.looking rfl) fun rows _ => ?_))
  generalize rows.head? = found
  cases found with
  | none => trivial
  | some key => exact given_bind (given_perform (.removing key) fun _ _ => trivial)

theorem validate_told (rawKey : String) :
    (ApiKeysService.validate h rawKey).Told (Inputs moves) (Shows (Known h start moves))
      (Careful h start moves) fun found =>
        Accepts h start moves (.validate rawKey) (.validated found) := by
  unfold ApiKeysService.validate Svc.findOne Svc.find
  rw [bind_assoc]
  refine told_bind (told_given (given_perform (.looking rfl) fun rows known => ?_))
  rw [pure_eq, ret_bind]
  cases found : rows.head? with
  | none => trivial
  | some key =>
    obtain ⟨issued, hash⟩ := known key (List.mem_of_head? found)
    by_cases inactive : key.isActive = false
    · simp only [if_pos inactive]
      trivial
    simp only [if_neg inactive]
    refine told_bind fun reading real => ?_
    show Program.Told _ _ _ _
      (if (key.expiresAt.any fun expiresAt => expiresAt < reading.now) = true then _ else _)
    by_cases expired : (key.expiresAt.any fun expiresAt => expiresAt < reading.now) = true
    · rw [if_pos expired]
      trivial
    rw [if_neg expired]
    refine told_bind fun later _ => told_bind (told_given (given_perform
      (.touching (issued_touched issued (some later.now))) fun _ _ => ?_))
    refine ⟨key, reading, issued, beq_iff_eq.mp hash, rfl, Bool.eq_true_of_not_eq_false inactive,
      real, fun expiresAt same => ?_⟩
    obtain same : key.expiresAt = some expiresAt := same
    simpa [same] using expired

/-- **What the requests do with keys.** -/
theorem program_careful {slot : Nat} {request : Request} {input : Input}
    (made : Machine.Move.start slot request input ∈ moves) :
    (request.program h).Told (Inputs moves) (Shows (Known h start moves)) (Careful h start moves)
      (Accepts h start moves request) := by
  cases request with
  | create workspaceId userId dto => exact told_then (create_told made) fun _ _ => trivial
  | remove id workspaceId userId => exact told_then remove_told fun _ _ => trivial
  | validate rawKey => exact told_then (validate_told rawKey) fun _ accepted => accepted

/-- A careful call writes keys at most. -/
theorem careful_other {call : Call} (careful : Careful h start moves call) {table : Table}
    (other : table ≠ .apiKeys) : call.writes table = false := by
  cases careful with
  | looking reads => exact Call.reads_writes reads table
  | creating _ | touching _ | removing _ => simpa [Call.writes] using other

/-- The keys after a careful call. -/
theorem careful_keys {call : Call} {input : Input} {store : Store}
    (careful : Careful h start moves call)
    (known : ∀ key ∈ store.db .apiKeys, Issued h start moves key) :
    ∀ key ∈ (exec call input store).2.db .apiKeys, Issued h start moves key := by
  intro key member
  cases careful with
  | looking reads =>
    rw [exec_reads reads] at member
    exact known key member
  | @creating draft created =>
    obtain ⟨_, failed⟩ | ⟨draft', _, same, _, inserted⟩ := exec_insert .apiKeys draft input store
    · rw [failed] at member
      exact known key member
    · rw [inserted] at member
      have member : key ∈ store.db.push .apiKeys (draft' input) .apiKeys := member
      rw [Db.push, Db.set_same] at member
      obtain before | last := List.mem_append.mp member
      · exact known key before
      · rw [List.mem_singleton.mp last]
        exact created draft' same input
  | touching issued =>
    obtain before | rfl := exec_save_rows .apiKeys _ input store key member
    · exact known key before
    · exact issued
  | removing removed =>
    obtain ⟨_, _, _, failed⟩ | performed := exec_cases (.remove .apiKeys removed) input store
    · rw [failed] at member
      exact known key member
    · rw [performed] at member
      simp only [perform, Db.remove, Db.erase, Db.set_same] at member
      exact known key (List.mem_filter.mp member).1

/-- A careful call keeps what the run shows. -/
theorem careful_kept {call : Call} {input : Input} {store : Store}
    (careful : Careful h start moves call)
    (known : ∀ table, ∀ row ∈ store.db table, Known h start moves table row) :
    ∀ table, ∀ row ∈ (exec call input store).2.db table, Known h start moves table row := by
  intro table
  by_cases same : table = .apiKeys
  · subst same
    exact careful_keys careful (known .apiKeys)
  · rw [exec_other call input store (careful_other careful same)]
    exact known table

/-- **An accepted key was issued.** Over all interleavings of creations, removals and validations,
a validation that accepts a raw key found the row of its hash among the first keys and those that
an owner or admin of the workspace created with a raw key drawn for it; the row belongs to the
workspace that is returned, is active, and was not expired at a time of the run. -/
theorem validated_issued {past : List Move} {pool : Pool}
    (reached : (system h).run (Machine.Pool.idle start) past = some pool) {slot : Nat}
    {rawKey : String} {input : Input} {workspaceId : Uuid}
    (accepts : (system h).Ends pool slot (.validate rawKey) input
      (.ok (.validated (some workspaceId)))) :
    let moves := past ++ [.resume slot input]
    ∃ key input', Issued h start moves key ∧ key.keyHash = h.sha256 rawKey ∧
      key.workspaceId = workspaceId ∧ key.isActive = true ∧ Inputs moves input' ∧
      ∀ expiresAt ∈ key.expiresAt, input'.now ≤ expiresAt := by
  intro moves
  have begins : ∀ table, ∀ row ∈ start.db table, Known h start moves table row := by
    intro table row member
    cases table with
    | apiKeys => exact ⟨row, .inl member, rfl⟩
    | members => exact member
    | _ => trivial
  obtain ⟨known, attached⟩ := told_kept
    (fun _ _ _ made => program_careful (List.mem_append_left _ made)) (fun _ known => known)
    (fun _ _ _ _ careful known => careful_kept careful known)
    (fun move made => ⟨move, List.mem_append_left _ made, rfl⟩) begins reached
  exact told_ends attached known ⟨_, List.mem_append_right _ List.mem_cons_self, rfl⟩ accepts

end Programs

/-- The key of a creation is accepted. -/
theorem validated_issued_example :
    ∃ (pool : Pool) (key : ApiKey) (input : Input),
      (system Example.helpers).run (Machine.Pool.idle Example.start)
        (Example.creation ++ Example.validation) = some pool ∧
      (system Example.helpers).Ends pool 2 (.validate "wa_2") (Example.at_ 9)
        (.ok (.validated (some "w"))) ∧
      key.keyHash = Example.helpers.sha256 "wa_2" ∧ key.workspaceId = "w" ∧
      Issued Example.helpers Example.start
        (Example.creation ++ Example.validation ++ [.resume 2 (Example.at_ 9)]) key ∧
      key.isActive = true ∧ ∀ expiresAt ∈ key.expiresAt, input.now ≤ expiresAt := by
  have accepts : ∃ pool, (system Example.helpers).run (Machine.Pool.idle Example.start)
      (Example.creation ++ Example.validation) = some pool ∧
      (system Example.helpers).Ends pool 2 (.validate "wa_2") (Example.at_ 9)
        (.ok (.validated (some "w"))) := ⟨_, rfl, _, rfl, rfl, rfl⟩
  obtain ⟨pool, reached, ends⟩ := accepts
  obtain ⟨key, input, issued, hash, own, active, _, unexpired⟩ := validated_issued reached ends
  exact ⟨pool, key, input, reached, ends, hash, own, issued, active, unexpired⟩

end WaAutomation.ApiKeys
