/-
**The database schema.**

One structure for each entity of `src/modules/*/entities`, with the columns some service or
processor reads, and the constraints Postgres enforces on them (`fits`: the characters of texts,
lengths of `varchar` columns, ranges of `int` and `smallint` ones), with what a `varchar` column
keeps of a value (`held`). `updatedAt`, `joinedAt` and the `createdAt` of tables that are never
ordered by it are read by no function and left out.

`Table` names the tables and `Row` gives their rows, so that repository calls can be stated once for
all of them. A uuid is only ever compared for equality and is a `String`; a time is in milliseconds.
-/

import Mathlib.Logic.Function.Basic
import Mathlib.Data.Rat.Defs

set_option linter.unusedSectionVars false

namespace WaAutomation

abbrev Uuid := String
abbrev Time := Nat

/-- A JSON value, as `jsonb` columns and job payloads hold it. -/
inductive Json where
  | null
  | bool (value : Bool)
  | num (value : Rat)
  | str (value : String)
  | arr (items : List Json)
  | obj (fields : List (String × Json))

/-- A plain object. A key that is absent reads as `undefined`. -/
abbrev Record := List (String × Json)

/-! ### Users and workspaces -/

structure User where
  id : Uuid
  name : String
  email : String
  password : String
  isActive : Bool
  deriving DecidableEq, Repr

structure Workspace where
  id : Uuid
  name : String
  ownerId : Uuid
  openwaBaseUrl : String
  openwaApiKey : String
  isActive : Bool
  deriving DecidableEq, Repr

/-- The declared type of `role` is `'owner' | 'admin' | 'member'`, but the column is a `varchar(20)`
and `InviteMemberDto.role` is any string. -/
structure WorkspaceMember where
  workspaceId : Uuid
  userId : Uuid
  role : String
  deriving DecidableEq, Repr

structure ApiKey where
  id : Uuid
  workspaceId : Uuid
  name : String
  keyHash : String
  keyPrefix : String
  lastUsedAt : Option Time
  expiresAt : Option Time
  isActive : Bool
  deriving DecidableEq, Repr

/-! ### Sessions, contacts and messages -/

inductive SessionStatus where
  | idle | connecting | connected | disconnected | error
  deriving DecidableEq, Repr

structure Session where
  id : Uuid
  workspaceId : Uuid
  sessionId : String
  name : String
  phoneNumber : Option String
  status : SessionStatus
  lastActiveAt : Option Time
  deriving DecidableEq, Repr

structure Contact where
  id : Uuid
  workspaceId : Uuid
  name : Option String
  phone : String
  tags : List String
  isBlacklisted : Bool
  notes : Option String
  createdAt : Time
  deriving DecidableEq, Repr

structure ContactGroup where
  id : Uuid
  workspaceId : Uuid
  name : String
  contactIds : List Uuid
  deriving DecidableEq, Repr

inductive MessageDirection where
  | incoming | out
  deriving DecidableEq, Repr

inductive MessageType where
  | text | image | file | audio | video
  deriving DecidableEq, Repr

inductive MessageStatus where
  | sent | delivered | read | failed
  deriving DecidableEq, Repr

structure MessageLog where
  id : Uuid
  workspaceId : Uuid
  sessionId : Option Uuid
  automationId : Option Uuid
  broadcastId : Option Uuid
  direction : MessageDirection
  fromPhone : Option String
  toPhone : Option String
  messageType : MessageType
  content : Option String
  status : MessageStatus
  waMessageId : Option String
  errorMessage : Option String
  createdAt : Time
  deriving DecidableEq, Repr

/-! ### Broadcasts -/

inductive BroadcastStatus where
  | draft | queued | sending | done | failed | cancelled
  deriving DecidableEq, Repr

structure Broadcast where
  id : Uuid
  workspaceId : Uuid
  sessionId : Uuid
  name : String
  template : String
  status : BroadcastStatus
  delayMs : Int
  total : Nat
  sentCount : Nat
  failedCount : Nat
  scheduledAt : Option Time
  startedAt : Option Time
  finishedAt : Option Time
  createdAt : Time
  deriving DecidableEq, Repr

inductive RecipientStatus where
  | pending | sent | failed
  deriving DecidableEq, Repr

/-- The column `variables` is `vars` here: the source's word is reserved. -/
structure BroadcastRecipient where
  id : Uuid
  broadcastId : Uuid
  phone : String
  vars : Record
  status : RecipientStatus
  errorMessage : Option String
  sentAt : Option Time

/-! ### Automations -/

inductive TriggerType where
  | message | schedule | webhook
  deriving DecidableEq, Repr

inductive ActionType where
  | sendText | sendImage | sendFile | forward | delay | condition
  deriving DecidableEq, Repr

structure Automation where
  id : Uuid
  workspaceId : Uuid
  sessionId : Option Uuid
  name : String
  description : Option String
  isActive : Bool
  triggerType : TriggerType
  triggerConfig : Record
  runCount : Nat
  lastRunAt : Option Time

structure AutomationAction where
  id : Uuid
  automationId : Uuid
  order : Int
  actionType : ActionType
  actionConfig : Record

/-! ### Webhooks -/

structure Webhook where
  id : Uuid
  workspaceId : Uuid
  name : String
  url : String
  secret : Option String
  events : List String
  isActive : Bool
  retryCount : Int
  timeoutMs : Int
  deriving DecidableEq, Repr

inductive DeliveryStatus where
  | success | failed
  deriving DecidableEq, Repr

structure WebhookDelivery where
  id : Uuid
  webhookId : Uuid
  event : String
  payload : Record
  attempt : Nat
  statusCode : Option Nat
  status : DeliveryStatus
  error : Option String
  createdAt : Time

/-! ### Tables -/

inductive Table where
  | users | workspaces | members | apiKeys | sessions | contacts | groups | logs
  | broadcasts | recipients | automations | actions | webhooks | deliveries
  deriving DecidableEq, Repr

@[reducible] def Row : Table → Type
  | .users => User
  | .workspaces => Workspace
  | .members => WorkspaceMember
  | .apiKeys => ApiKey
  | .sessions => Session
  | .contacts => Contact
  | .groups => ContactGroup
  | .logs => MessageLog
  | .broadcasts => Broadcast
  | .recipients => BroadcastRecipient
  | .automations => Automation
  | .actions => AutomationAction
  | .webhooks => Webhook
  | .deliveries => WebhookDelivery

/-- The primary key. Memberships have the only composite one. -/
def Row.key : (table : Table) → Row table → Uuid × Uuid
  | .users, row => (row.id, "")
  | .workspaces, row => (row.id, "")
  | .members, row => (row.workspaceId, row.userId)
  | .apiKeys, row => (row.id, "")
  | .sessions, row => (row.id, "")
  | .contacts, row => (row.id, "")
  | .groups, row => (row.id, "")
  | .logs, row => (row.id, "")
  | .broadcasts, row => (row.id, "")
  | .recipients, row => (row.id, "")
  | .automations, row => (row.id, "")
  | .actions, row => (row.id, "")
  | .webhooks, row => (row.id, "")
  | .deliveries, row => (row.id, "")

/-! ### Column constraints -/

/-- A `text` column: Postgres stores every character but U+0000. -/
def text (value : String) : Bool := !value.toList.contains '\x00'

/-- A nullable `text`. -/
def text? (value : Option String) : Bool := value.all text

/-- A `varchar(size)` column: more characters pass when all of them are spaces. -/
def varchar (size : Nat) (value : String) : Bool :=
  text value && (value.toList.drop size).all fun mark => mark == ' '

/-- A nullable `varchar(size)`. -/
def varchar? (size : Nat) (value : Option String) : Bool := value.all (varchar size)

/-- What a `varchar(size)` column keeps of a value it accepts: the excess spaces are cut off. -/
def cut (size : Nat) (value : String) : String :=
  if value.length ≤ size then value else String.ofList (value.toList.take size)

section Cut

variable {size : Nat} {value : String}

theorem cut_short (short : value.length ≤ size) : cut size value = value := if_pos short

theorem toList_cut : (cut size value).toList = value.toList.take size := by
  by_cases short : value.length ≤ size
  · rw [cut_short short, List.take_of_length_le short]
  · rw [cut, if_neg short, String.toList_ofList]

theorem length_cut : (cut size value).length ≤ size := by
  show (cut size value).toList.length ≤ size
  rw [toList_cut, List.length_take]
  exact Nat.min_le_left _ _

/-- What is kept of a value is kept as it is. -/
theorem cut_cut : cut size (cut size value) = cut size value := cut_short length_cut

/-- A value that leaves room in its column is kept of itself only. -/
theorem cut_iff {kept : String} (room : kept.length < size) :
    cut size value = kept ↔ value = kept := by
  by_cases short : value.length ≤ size
  · rw [cut_short short]
  · have full : (cut size value).length = size := by
      show (cut size value).toList.length = size
      rw [toList_cut, List.length_take]
      exact Nat.min_eq_left (Nat.le_of_not_le short)
    refine iff_of_false ?_ ?_
    · rintro rfl
      exact absurd full room.ne
    · rintro rfl
      exact short room.le

/-- What is kept of a value that passes passes. -/
theorem varchar_cut (passes : varchar size value = true) :
    varchar size (cut size value) = true := by
  obtain ⟨plain, _⟩ := Bool.and_eq_true_iff.mp passes
  refine Bool.and_eq_true_iff.mpr ⟨?_, ?_⟩
  · unfold text at plain ⊢
    rw [Bool.not_eq_true', List.contains_eq_mem, decide_eq_false_iff_not] at plain ⊢
    rw [toList_cut]
    exact fun member => plain (List.mem_of_mem_take member)
  · rw [List.drop_eq_nil_of_le (length_cut : (cut size value).toList.length ≤ size)]
    rfl

end Cut

/-- Spaces behind a full column are cut off, other characters are refused. -/
example : varchar 3 "abc " = true ∧ cut 3 "abc " = "abc" ∧ varchar 3 "abcd" = false ∧
    varchar 3 "a\x00" = false := by
  decide


mutual

/-- A `jsonb` column: its texts and its keys are texts that can be stored. -/
def jsonb : Json → Bool
  | .null | .bool _ | .num _ => true
  | .str value => text value
  | .arr items => jsonbs items
  | .obj fields => jsonbFields fields

def jsonbs : List Json → Bool
  | [] => true
  | item :: items => jsonb item && jsonbs items

def jsonbFields : Record → Bool
  | [] => true
  | field :: fields => jsonbField field && jsonbFields fields

def jsonbField : String × Json → Bool
  | (key, value) => text key && jsonb value

end

/-- A `smallint` column. -/
def smallint (value : Int) : Bool := -32768 ≤ value && value ≤ 32767

/-- An `int` column. -/
def int4 (value : Int) : Bool := -2147483648 ≤ value && value ≤ 2147483647

/-- The values Postgres accepts in the columns of a row. -/
def Row.fits : (table : Table) → Row table → Bool
  | .users, row => varchar 100 row.name && varchar 255 row.email && varchar 255 row.password
  | .workspaces, row =>
      varchar 100 row.name && varchar 255 row.openwaBaseUrl && text row.openwaApiKey
  | .members, row => varchar 20 row.role
  | .apiKeys, row => varchar 100 row.name && varchar 255 row.keyHash && varchar 16 row.keyPrefix
  | .sessions, row =>
      varchar 100 row.sessionId && varchar 100 row.name && varchar? 20 row.phoneNumber
  | .contacts, row =>
      varchar? 100 row.name && varchar 20 row.phone && row.tags.all text && text? row.notes
  | .groups, row => varchar 100 row.name && row.contactIds.all text
  | .logs, row =>
      varchar? 20 row.fromPhone && varchar? 20 row.toPhone && varchar? 100 row.waMessageId &&
        text? row.content && text? row.errorMessage
  | .broadcasts, row =>
      varchar 100 row.name && text row.template && int4 row.delayMs && int4 row.total &&
        int4 row.sentCount && int4 row.failedCount
  | .recipients, row => varchar 20 row.phone && jsonbFields row.vars && text? row.errorMessage
  | .automations, row =>
      varchar 100 row.name && text? row.description && jsonbFields row.triggerConfig &&
        int4 row.runCount
  | .actions, row => smallint row.order && jsonbFields row.actionConfig
  | .webhooks, row =>
      varchar 100 row.name && varchar 500 row.url && varchar? 255 row.secret &&
        row.events.all text && smallint row.retryCount && int4 row.timeoutMs
  | .deliveries, row =>
      varchar 100 row.event && jsonbFields row.payload && int4 row.attempt &&
        row.statusCode.all (fun status => int4 status) && text? row.error

/-- The row as the table keeps it. The columns that are cut here are those a longer text can reach:
roles, secrets and what logs and imported contacts carry are of any length. The other `varchar`
columns get what the request bodies bound, digits, addresses without spaces, and hashes. -/
def Row.held : (table : Table) → Row table → Row table
  | .members, row => { row with role := cut 20 row.role }
  | .contacts, row => { row with name := row.name.map (cut 100) }
  | .logs, row => { row with
      fromPhone := row.fromPhone.map (cut 20)
      toPhone := row.toPhone.map (cut 20)
      waMessageId := row.waMessageId.map (cut 100) }
  | .webhooks, row => { row with secret := row.secret.map (cut 255) }
  | _, row => row

/-- A row is held under its own key. -/
theorem Row.held_key (table : Table) (row : Row table) :
    Row.key table (Row.held table row) = Row.key table row := by
  cases table <;> rfl

/-- The unique keys beside the primary ones: `@Unique(['workspaceId', 'phone'])` on contacts and the
unique `email` of users. -/
def Row.clash : (table : Table) → Row table → Row table → Bool
  | .users, row, other => row.email == other.email
  | .contacts, row, other => row.workspaceId == other.workspaceId && row.phone == other.phone
  | _, _, _ => false

end WaAutomation
