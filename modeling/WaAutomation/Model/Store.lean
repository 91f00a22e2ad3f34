/-
**The shared state, and what single repository, queue and OpenWA calls do to it.**

A `Store` is the database, the BullMQ jobs that are not finished, and the journal of what the
process showed to the outside (OpenWA calls with their verdict, socket events, sleeps).

* `Call` lists the single calls services and processors make, `Resp` their replies, and `exec` their
  effect. An `Input` holds what a call does not decide itself: whether the database or queue fails,
  the clock, generated ids, OpenWA's answer.
* `save` of a loaded entity writes every column it carries over the stored row; when no row has its
  primary key any more it inserts the entity anew (TypeORM's `save`).
* Deleting a parent row deletes its children where the entity declares `onDelete: 'CASCADE'`, and a
  child cannot be inserted without its parent.

`Svc` is the type of a service function: a program over these calls.
-/

import WaAutomation.Library.Program
import WaAutomation.Library.Rows
import WaAutomation.Model.Schema

set_option linter.unusedSectionVars false

namespace WaAutomation

open Library

/-! ### Errors -/

/-- What a service or a call throws. -/
inductive Err where
  | forbidden (message : String)
  | notFound (message : String)
  | badRequest (message : String)
  | http (status : Nat) (message : String)
  | axios (status : Option Nat) (message : String)
  | database (message : String)
  | other (message : String)
  deriving DecidableEq, Repr

/-- The text `err.message`. -/
def Err.message : Err → String
  | .forbidden message => message
  | .notFound message => message
  | .badRequest message => message
  | .http _ message => message
  | .axios _ message => message
  | .database message => message
  | .other message => message

def notNullViolation : Err := .database "null value violates not-null constraint"
def checkViolation : Err := .database "value does not fit its column"
def uniqueViolation : Err := .database "duplicate key value violates unique constraint"
def foreignKeyViolation : Err := .database "insert violates foreign key constraint"

/-! ### OpenWA -/

/-- The credentials of a workspace. `workspaceId` is the workspace they were read from; it is not
sent. -/
structure OpenwaCredentials where
  baseUrl : String
  apiKey : String
  workspaceId : Uuid
  deriving DecidableEq, Repr

/-- The session a call goes through: its OpenWA session id, and the row it was taken from, which is
not sent. -/
structure SessionRef where
  sessionId : String
  id : Uuid
  deriving DecidableEq, Repr

/-- The functions of the EASY API the service wraps. The argument `to` is `chatId` here: the
source's word is reserved. -/
inductive OpenwaMethod where
  | start
  | kill
  | getConnectionState
  | getQrPng
  | sendText (chatId content : String)
  | sendImage (chatId : String) (url : Option Json) (filename caption : String)
  | sendFile (chatId : String) (url : Option Json) (filename : Json) (caption : String)

/-- The method's name in the URL and in error messages. -/
def OpenwaMethod.name : OpenwaMethod → String
  | .start => "start"
  | .kill => "kill"
  | .getConnectionState => "getConnectionState"
  | .getQrPng => "getQrPng"
  | .sendText _ _ => "sendText"
  | .sendImage _ _ _ _ => "sendImage"
  | .sendFile _ _ _ _ => "sendFile"

/-- The recipient row a broadcast run sends for. -/
structure RecipientRef where
  id : Uuid
  broadcastId : Uuid
  deriving DecidableEq, Repr

/-- One request of the EASY API. `recipient` is not sent. -/
structure OpenwaCall where
  creds : OpenwaCredentials
  method : OpenwaMethod
  session : SessionRef
  recipient : Option RecipientRef

/-- The response envelope: its flag and its error, which nothing reads, and the fields some caller
reads. -/
structure OpenwaResponse where
  success : Option Bool
  error : Option String
  response : Option String
  qr : Option String
  messageId : Option String
  deriving DecidableEq, Repr

/-- One request of `axios.post`. -/
structure Post where
  url : String
  body : String
  headers : List (String × String)
  timeout : Int
  deriving DecidableEq, Repr

/-! ### Jobs -/

/-- The field `to` is `toPhone` here. -/
structure SendMessageJob where
  workspaceId : Option Uuid
  sessionId : Uuid
  openwaSessionId : String
  toPhone : String
  type : MessageType
  content : Option String
  mediaUrl : Option String
  caption : Option String
  filename : Option String
  automationId : Option Uuid
  broadcastId : Option Uuid
  deriving DecidableEq, Repr

structure BroadcastJob where
  broadcastId : Uuid
  deriving DecidableEq, Repr

structure WebhookJob where
  webhookId : Uuid
  event : String
  payload : Record

structure AutomationJob where
  automationId : Uuid
  workspaceId : Uuid
  context : Record

/-- The jobs of the four queues `wa-messages`, `wa-broadcasts`, `wa-webhooks` and
`wa-automations`. -/
inductive Job where
  | message (data : SendMessageJob)
  | broadcast (data : BroadcastJob)
  | webhook (data : WebhookJob)
  | automation (data : AutomationJob)

/-- A job that is waiting, delayed or active. -/
structure QueuedJob where
  id : Nat
  job : Job
  attempts : Nat
  attemptsMade : Nat
  delay : Int

/-- The option `defaultJobOptions.attempts`. -/
def defaultAttempts : Nat := 3

/-! ### The journal -/

inductive Event where
  | sessionStatus (workspaceId sessionId : Uuid) (status : SessionStatus) (phone : Option String)
  | sessionQr (workspaceId sessionId : Uuid) (qr : String)
  | messageReceived (workspaceId sessionId : Uuid) (from_ message : Option String)
  | messageSent (workspaceId : Option Uuid) (sessionId : Uuid) (toPhone : String)
      (messageId : Option String)
  | broadcastProgress (workspaceId broadcastId : Uuid) (sent failed total : Nat)
  | automationTriggered (workspaceId automationId : Uuid)
  deriving DecidableEq, Repr

/-- What the process shows to the outside. -/
inductive Effect where
  | openwa (call : OpenwaCall) (accepted : Bool)
  | emit (event : Event)
  | sleep (ms : Int)

/-! ### The store -/

abbrev Db := (table : Table) → List (Row table)

/-- The shared state. BullMQ numbers the jobs of a queue; `jobIds` is the next number, one for the
four queues. `owner` is a history variable: the workspace a session or automation row was created
in, kept when the row is deleted. -/
structure Store where
  db : Db
  jobs : List QueuedJob
  jobIds : Nat
  journal : List Effect
  owner : Table → Uuid → Option Uuid

/-- What a call does not decide itself: `endpoint` is the answer to a webhook, and `attemptsMade`
the number of earlier attempts the queue tells a delivery. -/
structure Input where
  fault : Option String
  now : Time
  ids : Nat → Uuid
  bytes : String
  openwa : Except (Option Nat × String) OpenwaResponse
  endpoint : Except (Option Nat × String) Nat
  attemptsMade : Nat

namespace Db

/-- Replace the rows of one table. -/
def set (db : Db) (table : Table) (rows : List (Row table)) : Db := Function.update db table rows

/-- Two rows are versions of one another. -/
def sameKey {table : Table} (row other : Row table) : Bool :=
  decide (row.key table = other.key table)

/-- The row exists. -/
def has (db : Db) (table : Table) (id : Uuid) : Bool :=
  (db table).any fun row => (row.key table).1 == id

/-- The parents of a row, where the schema has a foreign key. -/
def parents (db : Db) : (table : Table) → Row table → Bool
  | .members, row => db.has .workspaces row.workspaceId && db.has .users row.userId
  | .recipients, row => db.has .broadcasts row.broadcastId
  | .actions, row => db.has .automations row.automationId
  | _, _ => true

/-- What Postgres checks when a row is written. -/
def check (db : Db) (table : Table) (row : Row table) : Except Err Unit :=
  if !row.fits table then .error checkViolation
  else if !db.parents table row then .error foreignKeyViolation
  else if (db table).any fun other => !sameKey other row && Row.clash table other row then
    .error uniqueViolation
  else .ok ()

/-- The table with a row added. -/
def push (db : Db) (table : Table) (row : Row table) : Db := db.set table (db table ++ [row])

/-- The table with a row in the place of the stored one. -/
def put (db : Db) (table : Table) (row : Row table) : Db :=
  db.set table (Rows.put (Row.key table) row (db table))

/-- Insert a new row, as its table keeps it. -/
def insert (db : Db) (table : Table) (row : Row table) : Except Err Db :=
  if (db table).any (sameKey row) then .error uniqueViolation
  else match db.check table row with
    | .error error => .error error
    | .ok () => .ok (db.push table (row.held table))

/-- Insert rows one after the other. -/
def insertAll (db : Db) (table : Table) : List (Row table) → Except Err Db
  | [] => .ok db
  | row :: rows =>
      match db.insert table row with
      | .error error => .error error
      | .ok next => insertAll next table rows

/-- Write a row over the stored one with its key, as its table keeps it. -/
def replace (db : Db) (table : Table) (row : Row table) : Except Err Db :=
  match db.check table row with
  | .error error => .error error
  | .ok () => .ok (db.put table (row.held table))

/-- Change the rows that match, as one statement: it sets numbers and times. -/
def update (db : Db) (table : Table) (matching : Row table → Bool)
    (change : Row table → Row table) : Except Err Db :=
  let rows := (db table).map fun row => if matching row then change row else row
  if rows.all (Row.fits table) then .ok (db.set table rows) else .error checkViolation

/-- Delete rows. -/
def erase (db : Db) (table : Table) (gone : Row table → Bool) : Db :=
  db.set table ((db table).filter fun row => !gone row)

/-- Delete a row and what cascades from it. -/
def remove (db : Db) : (table : Table) → Row table → Db
  | .users, row =>
      (db.erase .users (sameKey row)).erase .members fun member => member.userId == row.id
  | .workspaces, row =>
      (db.erase .workspaces (sameKey row)).erase .members fun member => member.workspaceId == row.id
  | .broadcasts, row =>
      (db.erase .broadcasts (sameKey row)).erase .recipients fun child =>
        child.broadcastId == row.id
  | .automations, row =>
      (db.erase .automations (sameKey row)).erase .actions fun child => child.automationId == row.id
  | table, row => db.erase table (sameKey row)

end Db

/-! ### Entities in memory -/

/-- An entity as TypeORM's `save` sees it: `onto` is what it writes over the stored row, and `anew`
what it inserts when that row is gone. They are `none` when a column that must not be null is null
or, for an insert, undefined without a default. -/
structure Entity (α : Type) where
  row : α
  onto : α → Option α
  anew : Option α

/-- An entity with every column loaded. -/
def Entity.whole {α : Type} (row : α) : Entity α := ⟨row, fun _ => some row, some row⟩

/-- An action to be stored with its automation: loaded before, or new. -/
inductive ActionEntity where
  | loaded (row : AutomationAction)
  | created (order : Int) (actionType : ActionType) (actionConfig : Record)

/-- The row of an action entity. -/
def ActionEntity.row (automationId id : Uuid) : ActionEntity → AutomationAction
  | .loaded row => row
  | .created order actionType actionConfig => ⟨id, automationId, order, actionType, actionConfig⟩

/-! ### Calls -/

/-- One call of a repository, of a queue, of OpenWA, of a webhook's endpoint or of the gateway, or a
sleep. -/
inductive Call where
  /-- Reads: `find`, `findOne`, `count` and query builders. -/
  | find (table : Table) (matching : Row table → Bool)
  /-- The read `broadcasts.findOne({ where: { id }, select: ['status'] })`. -/
  | findStatus (id : Uuid)
  /-- A `find` on automations, which loads the eager relation `actions`. -/
  | findAutomations (matching : Automation → Bool)
  /-- The insert `save(create(…))`; `none` when a column that must not be null is undefined. -/
  | insert (table : Table) (draft : Option (Input → Row table))
  /-- The `broadcasts.save` of a new broadcast with its recipients (phone and variables). -/
  | insertBroadcast (draft : Option (Input → Broadcast)) (recipients : List (String × Record))
  /-- The `automations.save` of a new automation with its actions. -/
  | insertAutomation (draft : Option (Input → Automation)) (actions : List ActionEntity)
  /-- The `save` of a loaded entity. -/
  | save (table : Table) (entity : Entity (Row table))
  /-- The `automations.save` of a loaded automation with its actions. -/
  | saveAutomation (entity : Entity Automation) (actions : List ActionEntity)
  /-- The `remove` of a loaded entity. -/
  | remove (table : Table) (row : Row table)
  /-- The call `actions.delete({ automationId })`. -/
  | deleteActions (automationId : Uuid)
  /-- An `increment` or `update`: one SQL `UPDATE`. -/
  | update (table : Table) (matching : Row table → Bool) (change : Row table → Row table)
  /-- The call `queue.add`. -/
  | add (job : Job) (attempts : Nat) (delay : Int)
  | openwa (call : OpenwaCall)
  | post (request : Post)
  | emit (event : Event)
  | sleep (ms : Int)
  /-- A call of a module outside the ones under study. It leaves broadcasts and their recipients
  alone. -/
  | elsewhere (change : Db → Db)

/-- The reply of a call. -/
@[reducible] def Resp : Call → Type
  | .find table _ => List (Row table)
  | .findStatus _ => Option BroadcastStatus
  | .findAutomations _ => List (Automation × List AutomationAction)
  | .insert table _ => Row table
  | .insertBroadcast _ _ => Broadcast
  | .insertAutomation _ _ => Automation × List AutomationAction
  | .save _ _ => Unit
  | .saveAutomation _ _ => List AutomationAction
  | .remove _ _ => Unit
  | .deleteActions _ => Unit
  | .update _ _ _ => Unit
  | .add _ _ _ => Nat
  | .openwa _ => OpenwaResponse
  | .post _ => Nat
  | .emit _ => Unit
  | .sleep _ => Unit
  | .elsewhere _ => Unit

namespace Store

/-- Run a database write: its error leaves the store alone. -/
def commit {α : Type} (store : Store) (value : α) : Except Err Db → Except Err α × Store
  | .error error => (.error error, store)
  | .ok db => (.ok value, { store with db := db })

/-- Note the workspace a new row was created in. -/
def issue (store : Store) (table : Table) (id workspaceId : Uuid) : Store :=
  { store with owner := fun other key =>
      if other = table ∧ key = id then some workspaceId else store.owner other key }

/-- Sessions are the rows of `save(create(…))` whose workspace is noted. -/
def register (store : Store) : (table : Table) → Row table → Store
  | .sessions, row => store.issue .sessions row.id row.workspaceId
  | _, _ => store

def note (store : Store) (effect : Effect) : Store :=
  { store with journal := store.journal ++ [effect] }

def insert (store : Store) (input : Input) :
    (table : Table) → Option (Input → Row table) → Except Err (Row table) × Store
  | _, none => (.error notNullViolation, store)
  | table, some draft =>
      let row := draft input
      match store.db.insert table row with
      | .error error => (.error error, store)
      | .ok db => (.ok row, { store with db := db }.register table row)

/-- The recipient rows of a new broadcast. -/
def recipientRows (input : Input) (broadcastId : Uuid) :
    Nat → List (String × Record) → List BroadcastRecipient
  | _, [] => []
  | index, (phone, vars) :: rest =>
      ⟨input.ids index, broadcastId, phone, vars, .pending, none, none⟩ ::
        recipientRows input broadcastId (index + 1) rest

def insertBroadcast (store : Store) (input : Input) (recipients : List (String × Record)) :
    Option (Input → Broadcast) → Except Err Broadcast × Store
  | none => (.error notNullViolation, store)
  | some draft =>
      let broadcast := draft input
      match store.db.insert .broadcasts broadcast with
      | .error error => (.error error, store)
      | .ok db =>
          store.commit broadcast
            (db.insertAll .recipients (recipientRows input broadcast.id 1 recipients))

/-- The action rows of an automation entity. -/
def actionRows (input : Input) (automationId : Uuid) :
    Nat → List ActionEntity → List AutomationAction
  | _, [] => []
  | index, action :: rest =>
      action.row automationId (input.ids index) :: actionRows input automationId (index + 1) rest

def insertAutomation (store : Store) (input : Input) (actions : List ActionEntity) :
    Option (Input → Automation) → Except Err (Automation × List AutomationAction) × Store
  | none => (.error notNullViolation, store)
  | some draft =>
      let automation := draft input
      let rows := actionRows input automation.id 1 actions
      match store.db.insert .automations automation with
      | .error error => (.error error, store)
      | .ok db =>
          (store.issue .automations automation.id automation.workspaceId).commit
            (automation, rows) (db.insertAll .actions rows)

def save (store : Store) (table : Table) (entity : Entity (Row table)) : Except Err Unit × Store :=
  match (store.db table).find? (Db.sameKey entity.row) with
  | some stored =>
      match entity.onto stored with
      | none => (.error notNullViolation, store)
      | some row => store.commit () (store.db.replace table row)
  | none =>
      match entity.anew with
      | none => (.error notNullViolation, store)
      | some row => store.commit () (store.db.insert table row)

/-- The entity carries the id of an action: `save` looks that action up. -/
def carries (actions : List ActionEntity) (id : Uuid) : Bool :=
  actions.any fun
    | .loaded row => row.id == id
    | .created _ _ _ => false

/-- Store an action of a loaded automation: write it over its row when it carries an id that is
stored, else insert it. -/
def putAction (carries : Uuid → Bool) (db : Db) (row : AutomationAction) : Except Err Db :=
  if carries row.id && (db .actions).any (Db.sameKey row) then db.replace .actions row
  else db.insert .actions row

def putActions (carries : Uuid → Bool) (db : Db) : List AutomationAction → Except Err Db
  | [] => .ok db
  | row :: rows =>
      match putAction carries db row with
      | .error error => .error error
      | .ok next => putActions carries next rows

/-- Saving an automation. A stored action that is not among the entity's own would be detached by
setting its `automation_id` to null, which the column forbids. -/
def saveAutomation (store : Store) (input : Input) (entity : Entity Automation)
    (actions : List ActionEntity) : Except Err (List AutomationAction) × Store :=
  let rows := actionRows input entity.row.id 0 actions
  match store.save .automations entity with
  | (.error error, _) => (.error error, store)
  | (.ok (), written) =>
      if (written.db .actions).any fun stored =>
          stored.automationId == entity.row.id && !rows.any (Db.sameKey stored) then
        (.error notNullViolation, store)
      else
        match putActions (carries actions) written.db rows with
        | .error error => (.error error, store)
        | .ok db => (.ok rows, { written with db := db })

def enqueue (store : Store) (job : Job) (attempts : Nat) (delay : Int) : Store :=
  { store with
    jobs := store.jobs ++ [⟨store.jobIds, job, attempts, 0, delay⟩], jobIds := store.jobIds + 1 }

/-- A database change outside the modules under study. -/
def elsewhere (store : Store) (change : Db → Db) : Store :=
  { store with db := fun table =>
      match table with
      | .broadcasts => store.db .broadcasts
      | .recipients => store.db .recipients
      | table => change store.db table }

/-- A call of OpenWA: it is made whatever its answer. -/
def openwa (store : Store) (input : Input) (call : OpenwaCall) :
    Except Err OpenwaResponse × Store :=
  match input.openwa with
  | .ok response => (.ok response, store.note (.openwa call true))
  | .error (status, message) => (.error (.axios status message), store.note (.openwa call false))

/-- A request to an endpoint: it resolves with the status of a 2xx answer, and throws else. -/
def post (store : Store) (input : Input) : Except Err Nat × Store :=
  match input.endpoint with
  | .ok status => (.ok status, store)
  | .error (status, message) => (.error (.axios status message), store)

end Store

/-- The calls that reach the database or the queue, and can fail there. -/
def Call.storage : Call → Bool
  | .openwa _ => false
  | .post _ => false
  | .emit _ => false
  | .sleep _ => false
  | _ => true

/-- A call that did not fail. -/
def perform (input : Input) (store : Store) : (call : Call) → Except Err (Resp call) × Store
  | .find table matching => (.ok ((store.db table).filter matching), store)
  | .findStatus id =>
      (.ok (((store.db .broadcasts).find? fun row => row.id == id).map Broadcast.status), store)
  | .findAutomations matching =>
      (.ok (((store.db .automations).filter matching).map fun row =>
        (row, (store.db .actions).filter fun action => action.automationId == row.id)), store)
  | .insert table draft => store.insert input table draft
  | .insertBroadcast draft recipients => store.insertBroadcast input recipients draft
  | .insertAutomation draft actions => store.insertAutomation input actions draft
  | .save table entity => store.save table entity
  | .saveAutomation entity actions => store.saveAutomation input entity actions
  | .remove table row => (.ok (), { store with db := store.db.remove table row })
  | .deleteActions automationId =>
      (.ok (), { store with
        db := store.db.erase .actions fun action => action.automationId == automationId })
  | .update table matching change => store.commit () (store.db.update table matching change)
  | .add job attempts delay => (.ok store.jobIds, store.enqueue job attempts delay)
  | .openwa call => store.openwa input call
  | .post _ => store.post input
  | .emit event => (.ok (), store.note (.emit event))
  | .sleep ms => (.ok (), store.note (.sleep ms))
  | .elsewhere change => (.ok (), store.elsewhere change)

/-- The execution of one call. A fault of the database or the queue makes the call throw and has no
effect. -/
def exec (call : Call) (input : Input) (store : Store) : Except Err (Resp call) × Store :=
  match call.storage, input.fault with
  | true, some message => (.error (.database message), store)
  | _, _ => perform input store call

/-! ### Service functions -/

/-- A service function. -/
abbrev Svc := Program Err Input Call Resp

namespace Svc

/-- One call. -/
def call (request : Call) : Svc (Resp request) := Program.perform request

/-- The clock, `new Date()`. -/
def now : Svc Time := .ambient fun input => .ret input.now

/-- The random string `randomBytes(…).toString('hex')`. -/
def randomHex : Svc String := .ambient fun input => .ret input.bytes

def find (table : Table) (matching : Row table → Bool) : Svc (List (Row table)) :=
  call (.find table matching)

def findOne (table : Table) (matching : Row table → Bool) : Svc (Option (Row table)) := do
  let rows ← find table matching
  return rows.head?

/-- The `save` of an entity with every column loaded. -/
def save (table : Table) (row : Row table) : Svc Unit := call (.save table (.whole row))

def remove (table : Table) (row : Row table) : Svc Unit := call (.remove table row)

def emit (event : Event) : Svc Unit := call (.emit event)

def sleep (ms : Int) : Svc Unit := call (.sleep ms)

/-- A fallible pure computation between two calls. -/
def lift {α : Type} : Except Err α → Svc α
  | .ok value => .ret value
  | .error error => .throw error

/-- A key of a `where` clause: a value that is undefined puts no constraint on the row. -/
def whereIs (value : Option Uuid) (column : Uuid) : Bool :=
  match value with
  | none => true
  | some value => column == value

end Svc

end WaAutomation
