/-
**Credentials that are read back.**

`encrypt` writes the vector, the tag and the cipher text in hexadecimal digits with colons between
them, and `decrypt` refuses a payload with an empty part. The cipher text of the empty text is
empty.

* `decrypt_encrypt` is the round trip: every text but the empty one is read back;
* `lastKey` is the API key a sequence of operations set last for a workspace, and `Readable` says
  that the stored one is an encryption of it; `readable_step` says that an operation keeps that;
* `credentials_read_back`: the credentials of a workspace can be read exactly when that key is not
  empty, and `empty_key_lost` a sequence in which it is.
-/

import WaAutomation.Accounts.Owners
import WaAutomation.Model.Encryption

set_option linter.unusedSectionVars false

namespace WaAutomation.Credentials

open Library Program Accounts Encryption

/-! ### One key -/

section Key

variable {c : Crypto} {plain secret : String} {iv : List UInt8}

theorem no_colon (bytes : List UInt8) : ':' ∉ Hex.encode bytes := by
  intro member
  have digit := Hex.isSome_of_mem member
  exact absurd digit (by decide)

/-- A text is read back from its bytes. -/
theorem text_utf8 (c : Crypto) (plain : String) : Encryption.text c (utf8 plain) = plain := by
  unfold Encryption.text utf8
  rw [Array.toArray_toList]
  unfold String.fromUTF8?
  rw [dif_pos plain.isValidUTF8]
  rfl

/-- Only the empty text has no bytes. -/
theorem utf8_length : (utf8 plain).length = 0 ↔ plain = "" := by
  unfold utf8
  rw [Array.length_toList]
  exact String.utf8ByteSize_eq_zero_iff

/-- The parts of what is written. -/
theorem parts (c : Crypto) (plain secret : String) (iv : List UInt8) :
    (encrypt c plain secret iv).toList.splitOn ':' =
      [Hex.encode iv, Hex.encode (c.encipher (getKey c secret) iv (utf8 plain)).authTag,
        Hex.encode (c.encipher (getKey c secret) iv (utf8 plain)).data] := by
  unfold encrypt
  rw [String.toList_ofList, List.append_assoc, List.cons_append,
    List.splitOn_append_cons_self_of_not_mem (no_colon iv),
    List.splitOn_append_cons_self_of_not_mem (no_colon _),
    List.splitOn_eq_singleton (no_colon _)]

/-- **What `decrypt` makes of what `encrypt` writes.** -/
theorem decrypt_encrypt (lawful : c.Lawful) (drawn : iv.length = 12) :
    decrypt c (encrypt c plain secret iv) secret =
      if plain = "" then .error (.other "Invalid encrypted payload format") else .ok plain := by
  have key : (getKey c secret).length = 32 := lawful.digest secret
  have size := lawful.length _ iv (utf8 plain) key drawn
  have tag := lawful.authTag _ iv (utf8 plain) key drawn
  have vector : Hex.encode iv ≠ [] := by
    rw [Ne, Hex.encode_eq_nil, ← List.length_eq_zero_iff]
    omega
  have tagged : Hex.encode (c.encipher (getKey c secret) iv (utf8 plain)).authTag ≠ [] := by
    rw [Ne, Hex.encode_eq_nil, ← List.length_eq_zero_iff]
    omega
  have empty : Hex.encode (c.encipher (getKey c secret) iv (utf8 plain)).data = [] ↔
      plain = "" := by
    rw [Hex.encode_eq_nil, ← List.length_eq_zero_iff, size, utf8_length]
  unfold decrypt
  rw [parts]
  dsimp only
  by_cases nothing : plain = ""
  · rw [if_pos (.inr (.inr (empty.mpr nothing))), if_pos nothing]
  · rw [if_neg (not_or.mpr ⟨vector, not_or.mpr ⟨tagged, mt empty.mp nothing⟩⟩), if_neg nothing,
      Hex.decode_encode, Hex.decode_encode, Hex.decode_encode, lawful.inverts _ _ _ key drawn]
    exact congrArg Except.ok (text_utf8 c plain)

/-- Every text but the empty one is read back. -/
theorem reads_back (lawful : c.Lawful) (drawn : iv.length = 12) :
    decrypt c (encrypt c plain secret iv) secret = .ok plain ↔ plain ≠ "" := by
  rw [decrypt_encrypt lawful drawn]
  by_cases nothing : plain = ""
  · rw [if_pos nothing]
    exact iff_of_false (fun wrong => (by cases wrong)) (not_not.mpr nothing)
  · rw [if_neg nothing]
    exact iff_of_true rfl nothing

end Key

/-! ### The key set last -/

section Books

variable (k : AccountHelpers)

/-- The API key a body gives. -/
def givenKey : Accounts.Request → Option String
  | .create _ dto => some dto.openwaApiKey
  | .update _ _ dto => dto.openwaApiKey.toOption
  | _ => none

/-- The API key an operation sets for a workspace: a `create` for the one it inserts, an `update`
that succeeds for its own. -/
def sets (store : Store) (step : Step) (id : Uuid) : Option String :=
  match step.request with
  | .create _ _ =>
      if store.db.has .workspaces id = false ∧
        (step.after k store).db.has .workspaces id = true then
        givenKey step.request
      else none
  | .update target _ _ =>
      if target = id ∧ ((step.request.program k).run exec step.tape store).1.isOk = true then
        givenKey step.request
      else none
  | _ => none

/-- The API key a sequence of operations set last for a workspace. -/
def lastKey (store : Store) (steps : List Step) (id : Uuid) : Option String :=
  match steps with
  | [] => none
  | step :: rest => (lastKey (step.after k store) rest id).or (sets k store step id)

theorem sets_given {store : Store} {step : Step} {id : Uuid} {key : String}
    (set : sets k store step id = some key) : givenKey step.request = some key := by
  unfold sets at set
  split at set
  · split_ifs at set
    exact set
  · split_ifs at set
    exact set
  · cases set

/-- The key is one of those the bodies give. -/
theorem lastKey_given {steps : List Step} {id : Uuid} {key : String} :
    ∀ {store : Store}, lastKey k store steps id = some key →
      ∃ step ∈ steps, givenKey step.request = some key := by
  induction steps with
  | nil => exact fun last => (by cases last)
  | cons step rest ih =>
    intro store last
    obtain later | ⟨_, here⟩ := Option.or_eq_some_iff.mp last
    · obtain ⟨other, member, given⟩ := ih later
      exact ⟨other, List.mem_cons_of_mem _ member, given⟩
    · exact ⟨step, List.mem_cons_self, sets_given k here⟩

end Books

/-! ### The stored keys -/

/-- The random bytes an operation encrypts with are twelve, in hexadecimal digits. -/
def Drawn (input : Input) : Prop :=
  ∃ iv : List UInt8, iv.length = 12 ∧ input.bytes = String.ofList (Hex.encode iv)

/-- The readings of an operation are drawn. A `create` encrypts before its first call, an `update`
between its second and its third. -/
def Draws (step : Step) : Prop :=
  match step.request with
  | .create _ _ => Drawn step.tape.now
  | .update _ _ _ => Drawn (step.tape.later 1)
  | _ => True

/-- Every stored key is an encryption of the one that was set last. -/
def Readable (c : Crypto) (secret : String) (books : Uuid → Option String) (store : Store) : Prop :=
  ∀ workspace ∈ store.db .workspaces, ∃ key iv, books workspace.id = some key ∧
    iv.length = 12 ∧ workspace.openwaApiKey = encrypt c key secret iv

section Step

variable {k : AccountHelpers} {c : Crypto} {secret : String} {books : Uuid → Option String}
  {store : Store} {tape : Tape Input}

/-- What is written is drawn. -/
theorem withSecret_encrypt {input : Input} {iv : List UInt8}
    (drawn : input.bytes = String.ofList (Hex.encode iv)) (plain : String) :
    (k.withSecret c secret).encrypt plain input.bytes = encrypt c plain secret iv := by
  show encrypt c plain secret (Hex.decode input.bytes.toList) = _
  rw [drawn, String.toList_ofList, Hex.decode_encode]

/-- The operations that set no key leave the workspaces, or delete some. -/
theorem workspaces_kept {step : Step} (gives : givenKey step.request = none)
    (other : ∀ id userId dto, step.request ≠ .update id userId dto) :
    ∀ workspace ∈ (step.after k store).db .workspaces, workspace ∈ store.db .workspaces := by
  have acts := step_acts k store step
  obtain ⟨request, tape⟩ := step
  generalize (Step.after k store ⟨request, tape⟩).db = db at acts ⊢
  dsimp only at acts gives other
  intro workspace member
  have erased {table : Table} {row : Row table}
      (kept : workspace ∈ store.db.remove table row .workspaces) :
        workspace ∈ store.db .workspaces :=
    ((store.db.remove_erases table row).rows .workspaces workspace kept).resolve_right id
  cases acts with
  | idle => exact member
  | halved => cases gives
  | created => cases gives
  | updated => exact absurd rfl (other _ _ _)
  | removed => exact erased member
  | invited _ _ _ _ _ _ _ _ _ _ _ _ _ writes =>
    rw [writes.others .workspaces (by decide)] at member
    exact member
  | memberRemoved => exact erased member
  | registered _ _ _ _ writes =>
    rw [writes.others .workspaces (by decide)] at member
    exact member
  | userRemoved => exact erased member

/-- The key a body leaves in a workspace. -/
def keyAfter (k : AccountHelpers) (field : Field String) (input : Input)
    (stored : String) : String :=
  (field.toOption.map fun key => k.encrypt key input.bytes).getD stored

theorem encryptKey_gives {field openwaApiKey : Field String} {tape' : Tape Input} {store' : Store}
    (ran : (WorkspacesService.encryptKey k field).run exec tape store =
      (.ok openwaApiKey, tape', store')) (stored : String) :
    openwaApiKey.orElse (some stored) = some (keyAfter k field tape.now stored) := by
  cases field with
  | undefined =>
    cases ran
    rfl
  | null => cases ran
  | value given =>
    cases ran
    rfl

/-- What is assigned to a workspace. -/
theorem assign_key {workspace row : Workspace} {dto : UpdateWorkspaceDto}
    {openwaApiKey : Field String}
    (assigned : WorkspacesService.assign workspace dto openwaApiKey = some row) :
    openwaApiKey.orElse (some workspace.openwaApiKey) = some row.openwaApiKey := by
  unfold WorkspacesService.assign at assigned
  split at assigned
  · rename_i given _
    cases assigned
    exact given
  · cases assigned

/-- What an `update` does: it fails and leaves the store, or it writes the workspace with the key of
its body, if there is one. -/
theorem run_update (k : AccountHelpers) (tape : Tape Input) (store : Store) (id userId : Uuid)
    (dto : UpdateWorkspaceDto) :
    (∃ error tape', ((Accounts.Request.update id userId dto).program k).run exec tape store =
      (.error error, tape', store)) ∨
    ∃ stored row db tape', ((Accounts.Request.update id userId dto).program k).run exec tape store =
        (.ok (), tape', { store with db := db }) ∧
      stored ∈ store.db .workspaces ∧ stored.id = id ∧ row.id = id ∧
      row.openwaApiKey = keyAfter k dto.openwaApiKey (tape.later 1) stored.openwaApiKey ∧
      Written store.db db .workspaces row := by
  unfold Accounts.Request.program WorkspacesService.update
  dsimp only
  rw [Program.bind_assoc]
  obtain ⟨_, guarded, _⟩ := run_assertRole id userId managers tape store
  obtain ⟨error, _, failed⟩ | ⟨_, _, continued⟩ := run_after guarded
  · exact .inl ⟨error, _, failed⟩
  rw [continued, Program.bind_assoc]
  obtain ⟨_, looked, finds⟩ := run_findById id tape.advance store
  obtain ⟨error, _, failed⟩ | ⟨workspace, same, continued⟩ := run_after looked
  · exact .inl ⟨error, _, failed⟩
  obtain ⟨member, is⟩ := finds workspace same
  rw [continued, Program.bind_assoc]
  obtain ⟨_, encrypted⟩ := run_encryptKey k dto.openwaApiKey tape.advance.advance store
  obtain ⟨error, _, failed⟩ | ⟨openwaApiKey, rfl, continued⟩ := run_after encrypted
  · exact .inl ⟨error, _, failed⟩
  have gives := encryptKey_gives encrypted workspace.openwaApiKey
  -- A body that sets a column to null makes `save` fail: then any row will do.
  obtain ⟨row, onto, key, holds⟩ : ∃ row : Workspace, (∀ written,
      WorkspacesService.assign workspace dto openwaApiKey = some written → written = row) ∧
      row.id = workspace.id ∧ row.openwaApiKey =
        keyAfter k dto.openwaApiKey (tape.later 1) workspace.openwaApiKey := by
    cases assigned : WorkspacesService.assign workspace dto openwaApiKey with
    | none =>
      exact ⟨{ workspace with
          openwaApiKey := keyAfter k dto.openwaApiKey (tape.later 1) workspace.openwaApiKey },
        fun _ wrong => (by cases wrong), rfl, rfl⟩
    | some row =>
      exact ⟨row, fun _ same => (Option.some.inj same).symm, (assign_keeps assigned).1,
        Option.some.inj ((assign_key assigned).symm.trans gives)⟩
  rw [continued, Program.bind_assoc]
  unfold Svc.call
  rw [run_bind, run_perform]
  obtain ⟨error, failed⟩ | ⟨db, _, _, written, saved⟩ := exec_save_written .workspaces
      ⟨workspace, fun _ => WorkspacesService.assign workspace dto openwaApiKey,
        WorkspacesService.assign workspace dto openwaApiKey⟩ row (fun _ => onto) onto
      (congrArg (·, "") key) (tape.advance.advance.later 0) store
  · rw [failed]
    exact .inl ⟨error, _, rfl⟩
  · rw [saved]
    exact .inr ⟨workspace, row, db, _, rfl, member, is, key.trans is, holds, written⟩

/-- The books after an operation. -/
def booked (k : AccountHelpers) (books : Uuid → Option String) (store : Store) (step : Step)
    (id : Uuid) : Option String :=
  (sets k store step id).or (books id)

/-- The workspace stands in the table. -/
theorem has_of_mem {db : Db} {workspace : Workspace} (member : workspace ∈ db .workspaces) :
    db.has .workspaces workspace.id = true :=
  List.any_eq_true.mpr ⟨workspace, member, beq_self_eq_true workspace.id⟩

/-- What a `create` does to the workspaces: those that were there, and one with a new id. -/
theorem rows_create (userId : Uuid) (dto : CreateWorkspaceDto) :
    ∀ workspace ∈ (Step.after k store ⟨.create userId dto, tape⟩).db .workspaces,
      workspace ∈ store.db .workspaces ∨ store.db.has .workspaces workspace.id = false ∧
        workspace.openwaApiKey = k.encrypt dto.openwaApiKey tape.now.bytes := by
  have acts := step_acts k store ⟨.create userId dto, tape⟩
  generalize (Step.after k store ⟨.create userId dto, tape⟩).db = db at acts ⊢
  have inserted {first : Db}
      (inserts : store.db.insert .workspaces (newWorkspace k userId dto tape) = .ok first) :
      ∀ workspace ∈ first .workspaces, workspace ∈ store.db .workspaces ∨
        store.db.has .workspaces workspace.id = false ∧
          workspace.openwaApiKey = k.encrypt dto.openwaApiKey tape.now.bytes := by
    obtain ⟨fresh, _, rfl⟩ := Db.insert_ok inserts
    intro workspace member
    rw [Db.push, Db.set_same, List.mem_append, List.mem_singleton] at member
    obtain old | rfl := member
    · exact .inl old
    · refine .inr ⟨List.any_eq_false.mpr fun other there same => ?_, rfl⟩
      refine List.any_eq_false.mp fresh other there (decide_eq_true ?_)
      exact congrArg (·, "") (beq_iff_eq.mp same).symm
  cases acts with
  | idle => exact fun workspace member => .inl member
  | halved _ _ _ _ _ inserts => exact inserted inserts
  | created _ _ _ first _ inserts _ joins =>
    rw [joins.others .workspaces (by decide)]
    exact inserted inserts

theorem readable_create {userId : Uuid} {dto : CreateWorkspaceDto}
    (readable : Readable c secret books store) (draws : Drawn tape.now) :
    Readable c secret
      (booked (k.withSecret c secret) books store ⟨.create userId dto, tape⟩)
      (Step.after (k.withSecret c secret) store ⟨.create userId dto, tape⟩) := by
  obtain ⟨iv, twelve, drawn⟩ := draws
  intro workspace member
  obtain old | ⟨fresh, holds⟩ := rows_create userId dto workspace member
  · obtain ⟨key, iv, known, rest⟩ := readable workspace old
    refine ⟨key, iv, ?_, rest⟩
    have kept : sets (k.withSecret c secret) store ⟨.create userId dto, tape⟩ workspace.id =
        none :=
      if_neg fun wrong => absurd ((has_of_mem old).symm.trans wrong.1) (by decide)
    rw [booked, kept, Option.none_or, known]
  · refine ⟨dto.openwaApiKey, iv, ?_, twelve, holds.trans (withSecret_encrypt drawn _)⟩
    have set : sets (k.withSecret c secret) store ⟨.create userId dto, tape⟩ workspace.id =
        some dto.openwaApiKey := if_pos ⟨fresh, has_of_mem member⟩
    rw [booked, set, Option.some_or]

theorem readable_update {id userId : Uuid} {dto : UpdateWorkspaceDto}
    (readable : Readable c secret books store) (draws : Drawn (tape.later 1)) :
    Readable c secret
      (booked (k.withSecret c secret) books store ⟨.update id userId dto, tape⟩)
      (Step.after (k.withSecret c secret) store ⟨.update id userId dto, tape⟩) := by
  obtain ⟨iv, twelve, drawn⟩ := draws
  have aside {other : Uuid} (apart : id ≠ other) :
      sets (k.withSecret c secret) store ⟨.update id userId dto, tape⟩ other = none :=
    if_neg fun wrong => apart wrong.1
  obtain ⟨error, tape', ran⟩ | ⟨stored, row, db, tape', ran, there, is, own, holds, writes⟩ :=
    run_update (k.withSecret c secret) tape store id userId dto
  · have failed : ∀ other, sets (k.withSecret c secret) store ⟨.update id userId dto, tape⟩ other =
        none := fun other => if_neg fun wrong => (by rw [ran] at wrong; cases wrong.2)
    unfold Step.after
    rw [ran]
    intro workspace member
    rw [booked, failed, Option.none_or]
    exact readable workspace member
  · have here : sets (k.withSecret c secret) store ⟨.update id userId dto, tape⟩ id =
        dto.openwaApiKey.toOption := if_pos ⟨rfl, by rw [ran]; rfl⟩
    unfold Step.after
    rw [ran]
    intro workspace member
    obtain rfl | ⟨old, apart⟩ := (writes.rows workspace).mp member
    · rw [booked, own, here]
      obtain ⟨key, former, known, rest⟩ := readable stored there
      cases given : dto.openwaApiKey.toOption with
      | none =>
        refine ⟨key, former, ?_, rest.1, ?_⟩
        · rw [Option.none_or, ← is, known]
        · rw [holds, keyAfter, given]
          exact rest.2
      | some fresh =>
        refine ⟨fresh, iv, Option.some_or, twelve, ?_⟩
        rw [holds, keyAfter, given]
        exact withSecret_encrypt drawn fresh
    · rw [booked, aside fun same => apart (congrArg (·, "") (same.symm.trans own.symm)),
        Option.none_or]
      exact readable workspace old

/-- **The step**: an operation keeps the stored keys readable. -/
theorem readable_step {step : Step} (readable : Readable c secret books store)
    (draws : Draws step) :
    Readable c secret (booked (k.withSecret c secret) books store step)
      (step.after (k.withSecret c secret) store) := by
  have others (gives : givenKey step.request = none)
      (other : ∀ id userId dto, step.request ≠ .update id userId dto)
      (sets : ∀ id, sets (k.withSecret c secret) store step id = none) :
      Readable c secret (booked (k.withSecret c secret) books store step)
        (step.after (k.withSecret c secret) store) := by
    intro workspace member
    rw [booked, sets, Option.none_or]
    exact readable workspace (workspaces_kept gives other workspace member)
  obtain ⟨request, tape⟩ := step
  cases request with
  | create userId dto => exact readable_create readable draws
  | update id userId dto => exact readable_update readable draws
  | _ => exact others rfl (fun _ _ _ wrong => (by cases wrong)) fun _ => rfl

/-- **The run**: after a sequence of operations, too. -/
theorem readable_run {steps : List Step} (draws : ∀ step ∈ steps, Draws step) :
    ∀ {store : Store} {books : Uuid → Option String}, Readable c secret books store →
      Readable c secret
        (fun id => (lastKey (k.withSecret c secret) store steps id).or (books id))
        (after (k.withSecret c secret) store steps) := by
  induction steps with
  | nil => exact fun readable => readable
  | cons step rest ih =>
    intro store books readable
    have now := readable_step (k := k) readable (draws step List.mem_cons_self)
    have later := ih (fun other member => draws other (List.mem_cons_of_mem _ member)) now
    intro workspace member
    obtain ⟨key, iv, known, holds⟩ := later workspace member
    exact ⟨key, iv, Option.or_assoc.trans known, holds⟩

end Step

/-! ### Reading back -/

/-- The API key `getOpenwaCredentials` returns for a workspace. -/
def readKey (h : Helpers) (id : Uuid) (tape : Tape Input) (store : Store) : Except Err String :=
  ((WorkspacesService.getOpenwaCredentials h (some id)).run exec tape store).1.map
    OpenwaCredentials.apiKey

/-- The key of a readable workspace is read back, unless it is empty. -/
theorem readKey_iff {h : Helpers} {c : Crypto} {secret key : String} {books : Uuid → Option String}
    {store : Store} {workspace : Workspace} {tape : Tape Input} (lawful : c.Lawful)
    (readable : Readable c secret books store) (member : workspace ∈ store.db .workspaces)
    (known : books workspace.id = some key) (clear : (tape.later 0).fault = none) :
    readKey (h.withSecret c secret) workspace.id tape store = .ok key ↔ key ≠ "" := by
  obtain ⟨found, finds⟩ : ∃ found, (store.db .workspaces).find?
      (fun other => Svc.whereIs (some workspace.id) other.id) = some found :=
    Option.isSome_iff_exists.mp
      (List.find?_isSome.mpr ⟨workspace, member, beq_self_eq_true workspace.id⟩)
  have hit := List.find?_some finds
  have same : found.id = workspace.id := beq_iff_eq.mp hit
  obtain ⟨other, iv, booked, drawn, stored⟩ := readable found (List.mem_of_find?_eq_some finds)
  obtain rfl : other = key := Option.some.inj (booked.symm.trans (same ▸ known))
  have decrypts : (h.withSecret c secret).decrypt found.openwaApiKey =
      decrypt c (encrypt c other secret iv) secret := congrArg (decrypt c · secret) stored
  have reads : readKey (h.withSecret c secret) workspace.id tape store =
      decrypt c (encrypt c other secret iv) secret := by
    unfold readKey WorkspacesService.getOpenwaCredentials
    rw [run_bind, findOne_clear clear, finds]
    dsimp only
    rw [decrypts]
    cases decrypt c (encrypt c other secret iv) secret with
    | ok key => rfl
    | error error => rfl
  rw [reads]
  exact reads_back lawful drawn

/-- **What is read back.** A text is read back exactly when it is not empty. After any sequence of
operations the key of every workspace is read back exactly when the one set last is not empty; so in
a sequence that sets no empty key every workspace has its credentials. -/
theorem credentials_read_back (h : Helpers) (k : AccountHelpers) (c : Crypto) (lawful : c.Lawful)
    (secret : String) :
    (∀ plain iv, iv.length = 12 →
      (decrypt c (encrypt c plain secret iv) secret = .ok plain ↔ plain ≠ "")) ∧
    ∀ start steps, start.db .workspaces = [] → (∀ step ∈ steps, Draws step) →
      ∀ workspace ∈ (after (k.withSecret c secret) start steps).db .workspaces,
        ∃ key, lastKey (k.withSecret c secret) start steps workspace.id = some key ∧
          ∀ tape, (tape.later 0).fault = none →
            (readKey (h.withSecret c secret) workspace.id tape
              (after (k.withSecret c secret) start steps) = .ok key ↔ key ≠ "") ∧
            ((∀ step ∈ steps, givenKey step.request ≠ some "") →
              readKey (h.withSecret c secret) workspace.id tape
                (after (k.withSecret c secret) start steps) = .ok key) := by
  refine ⟨fun plain iv drawn => reads_back lawful drawn, fun start steps empty draws => ?_⟩
  have begins : Readable c secret (fun _ => none) start := by
    intro workspace member
    rw [empty] at member
    cases member
  have readable := readable_run (k := k) draws begins
  intro workspace member
  obtain ⟨key, _, known, _⟩ := readable workspace member
  have last : lastKey (k.withSecret c secret) start steps workspace.id = some key :=
    Option.or_none.symm.trans known
  refine ⟨key, last, fun tape clear => ?_⟩
  have exactly := readKey_iff (h := h) lawful readable member known clear
  refine ⟨exactly, fun filled => exactly.mpr ?_⟩
  obtain ⟨step, inside, given⟩ := lastKey_given _ last
  rintro rfl
  exact filled step inside given

namespace Example

/-- A cipher that hides nothing, with a tag of zeros. -/
def clear : Crypto :=
  ⟨fun _ => List.replicate 32 0, fun _ _ plain => ⟨plain, List.replicate 16 0⟩,
    fun _ _ _ data => .ok data, fun _ => ""⟩

theorem clear_lawful : clear.Lawful where
  digest _ := List.length_replicate
  inverts _ _ _ _ _ := rfl
  length _ _ _ _ _ := rfl
  authTag _ _ _ _ _ := List.length_replicate

/-- Inputs with which nothing fails, and what is drawn from them. -/
def sealing : Tape Input :=
  let input : Input := { WaAutomation.Example.fine with
    ids := fun _ => "w", bytes := String.ofList (Hex.encode (List.replicate 12 0)) }
  ⟨input, fun _ => input⟩

theorem sealing_drawn : Drawn sealing.now := ⟨_, List.length_replicate, rfl⟩

def founding (openwaApiKey : String) : Step := ⟨.create "ann" ⟨"Shop", "", openwaApiKey⟩, sealing⟩

/-- What is encrypted and decrypted with one secret. -/
def accounts : AccountHelpers := Accounts.Example.helpers.withSecret clear "secret"

def helpers : Helpers := WaAutomation.Example.helpers.withSecret clear "secret"

end Example

theorem credentials_read_back_example :
    ∃ steps workspace, (after Example.accounts Accounts.Example.start steps).db .workspaces =
        [workspace] ∧
      readKey Example.helpers workspace.id Example.sealing
        (after Example.accounts Accounts.Example.start steps) = .ok "key" := by
  refine ⟨[Example.founding "key"], _, by rfl, ?_⟩
  obtain ⟨key, last, reads⟩ := (credentials_read_back WaAutomation.Example.helpers
    Accounts.Example.helpers Example.clear Example.clear_lawful "secret").2 Accounts.Example.start
    [Example.founding "key"] rfl (fun step member => (by
      obtain rfl := List.mem_singleton.mp member
      exact Example.sealing_drawn)) _ (by exact List.mem_cons_self)
  have set : lastKey Example.accounts Accounts.Example.start [Example.founding "key"] "w" =
      some "key" := by rfl
  obtain rfl : "key" = key := Option.some.inj (set.symm.trans last)
  exact (reads Example.sealing rfl).1.mpr (by decide)

/-- **The empty key**: it is accepted, and what is stored cannot be read. -/
theorem empty_key_lost :
    Example.clear.Lawful ∧
    decrypt Example.clear (encrypt Example.clear "" "secret" (List.replicate 12 0)) "secret" =
      .error (.other "Invalid encrypted payload format") ∧
    Draws (Example.founding "") ∧
    ((after Example.accounts Accounts.Example.start [Example.founding ""]).db .workspaces).map
      Workspace.id = ["w"] ∧
    lastKey Example.accounts Accounts.Example.start [Example.founding ""] "w" = some "" ∧
    readKey Example.helpers "w" Example.sealing
        (after Example.accounts Accounts.Example.start [Example.founding ""]) =
      .error (.other "Invalid encrypted payload format") := by
  refine ⟨Example.clear_lawful, ?_, Example.sealing_drawn, by rfl, by rfl, ?_⟩
  · exact decrypt_encrypt Example.clear_lawful List.length_replicate
  · rfl

end WaAutomation.Credentials
