/-
**Analytics.**

`AnalyticsService`: counts and sums over the rows of a workspace. A query builder's parameter that
is undefined is sent as `NULL`, which equals nothing; a `where` key that is undefined puts no
constraint on the row.
-/

import WaAutomation.Model.Automations
import WaAutomation.Model.Broadcasts

set_option linter.unusedSectionVars false

namespace WaAutomation

open Library

structure Overview where
  date : String
  messagesToday : Nat
  inbound : Nat
  outbound : Nat
  failed : Nat
  activeSessions : Nat
  activeAutomations : Nat
  deriving DecidableEq, Repr

structure MessagesRow where
  day : String
  direction : MessageDirection
  count : Nat
  deriving DecidableEq, Repr

structure AutomationStat where
  id : Uuid
  name : String
  isActive : Bool
  runCount : Nat
  lastRunAt : Option Time
  deriving DecidableEq, Repr

structure SessionStat where
  id : Uuid
  name : String
  status : SessionStatus
  messageCount : Nat
  deriving DecidableEq, Repr

structure BroadcastStats where
  total : Nat
  byStatus : List (BroadcastStatus × Nat)
  totalSent : Nat
  totalFailed : Nat
  deriving DecidableEq, Repr

namespace AnalyticsService

/-- The number of rows that match. -/
def count (table : Table) (matching : Row table → Bool) : Svc Nat := do
  let rows ← Svc.find table matching
  return rows.length

/-- The log rows of a workspace in a time range. -/
def between (workspaceId : Option Uuid) (start stop : Time) (log : MessageLog) : Bool :=
  Svc.whereIs workspaceId log.workspaceId && decide (start ≤ log.createdAt) &&
    decide (log.createdAt ≤ stop)

def overview (h : Helpers) (workspaceId : Option Uuid) (userId : Uuid) : Svc Overview := do
  let _ ← WorkspacesService.assertMember workspaceId userId
  let now ← Svc.now
  let today := between workspaceId (h.startOfDay now) (h.endOfDay now)
  let messagesToday ← count .logs today
  let inbound ← count .logs fun log => today log && log.direction == .incoming
  let outbound ← count .logs fun log => today log && log.direction == .out
  let failed ← count .logs fun log => today log && log.status == .failed
  let activeSessions ← count .sessions fun session =>
    Svc.whereIs workspaceId session.workspaceId && session.status == .connected
  let activeAutomations ← count .automations fun automation =>
    Svc.whereIs workspaceId automation.workspaceId && automation.isActive
  return ⟨String.ofList ((h.isoString (h.startOfDay now)).toList.take 10), messagesToday, inbound,
    outbound, failed, activeSessions, activeAutomations⟩

/-- The groups of a `GROUP BY`, with their sizes, in order of appearance. -/
def groups {α : Type} [BEq α] (keys : List α) : List (α × Nat) :=
  (keys.foldl (fun seen key => if seen.contains key then seen else seen ++ [key]) []).map fun key =>
    (key, keys.count key)

def messages_ (h : Helpers) (workspaceId : Option Uuid) (userId : Uuid)
    (sent until_ : Option String) :
    Svc (List MessagesRow) := do
  let _ ← WorkspacesService.assertMember workspaceId userId
  let now ← Svc.now
  let start := ((orNull sent).map h.parseDate).getD (h.startOfDay now)
  let stop := ((orNull until_).map h.parseDate).getD now
  let rows ← Svc.find .logs fun log =>
    workspaceId == some log.workspaceId && decide (start ≤ log.createdAt) &&
      decide (log.createdAt ≤ stop)
  let counted := groups (rows.map fun log => (h.day log.createdAt, log.direction))
  return (counted.map fun group => ⟨group.1.1, group.1.2, group.2⟩).mergeSort
    fun first second => first.day ≤ second.day

def automationStats (workspaceId : Option Uuid) (userId : Uuid) : Svc (List AutomationStat) := do
  let _ ← WorkspacesService.assertMember workspaceId userId
  let list ← Svc.find .automations fun automation =>
    Svc.whereIs workspaceId automation.workspaceId
  return (list.map fun automation => ⟨automation.id, automation.name, automation.isActive,
    automation.runCount, automation.lastRunAt⟩).mergeSort
    fun first second => second.runCount ≤ first.runCount

def sessionStats (workspaceId : Option Uuid) (userId : Uuid) : Svc (List SessionStat) := do
  let _ ← WorkspacesService.assertMember workspaceId userId
  let rows ← Svc.find .logs fun log => workspaceId == some log.workspaceId
  let sessions ← Svc.find .sessions fun session => Svc.whereIs workspaceId session.workspaceId
  return sessions.map fun session => ⟨session.id, session.name, session.status,
    rows.countP fun log => log.sessionId == some session.id⟩

def broadcastStats (workspaceId : Option Uuid) (userId : Uuid) : Svc BroadcastStats := do
  let _ ← WorkspacesService.assertMember workspaceId userId
  let list ← Svc.find .broadcasts fun broadcast => Svc.whereIs workspaceId broadcast.workspaceId
  return ⟨list.length, groups (list.map Broadcast.status),
    list.foldl (fun sum broadcast => sum + broadcast.sentCount) 0,
    list.foldl (fun sum broadcast => sum + broadcast.failedCount) 0⟩

end AnalyticsService

end WaAutomation
