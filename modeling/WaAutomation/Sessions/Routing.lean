/-
**Where the messages of a session go.**

A callback of OpenWA names a session by its OpenWA id alone, and everything the callback leads to
goes to the workspace of the row found under that id. `create` takes any id, also one another
session has.

* `Unique` says that an OpenWA id has at most one row; calls keep it as long as no session is
  written under an id another row has (`Unshared`);
* `onMessage_routed`: what a callback logs, shows and enqueues is for the session it finds;
* `one_owner` puts them together, and `two_owners` is a run in which two workspaces create a session
  under one id.
-/

import WaAutomation.Model.Services
import WaAutomation.Model.Triggers
import WaAutomation.Model.Writes

set_option linter.unusedSectionVars false

namespace WaAutomation.Routing

open Library

/-! ### The system -/

inductive Request where
  | create (workspaceId : Option Uuid) (userId : Uuid) (dto : CreateSessionDto)
  | update (id : Uuid) (workspaceId : Option Uuid) (userId : Uuid) (dto : UpdateSessionDto)
  | remove (id : Uuid) (workspaceId : Option Uuid) (userId : Uuid)

def Request.program (h : Helpers) : Request → Svc Unit
  | .create workspaceId userId dto => do
      let _ ← SessionsService.create workspaceId userId dto
  | .update id workspaceId userId dto => do
      let _ ← SessionsService.update id workspaceId userId dto
  | .remove id workspaceId userId => do
      let _ ← SessionsService.remove h id workspaceId userId

def system (h : Helpers) := services (Request.program h)

abbrev Pool := Calling Request Unit

abbrev Move := Machine.Move Input Nat fun _ => Request

/-- What is loaded and written back keeps its id. -/
theorem assign_keyed (session : Session) (dto : UpdateSessionDto) :
    (SessionsService.assign session dto).Keyed .sessions := by
  unfold SessionsService.assign
  cases dto.name with
  | value name => exact Entity.whole_keyed .sessions _
  | null => exact ⟨fun _ _ writes => (by cases writes), fun _ writes => (by cases writes)⟩
  | undefined =>
    refine ⟨fun stored row writes => ?_, fun _ writes => (by cases writes)⟩
    cases writes
    rfl

theorem program_tidy (h : Helpers) (request : Request) :
    (request.program h).Calls Call.Tidy := by
  have managed (workspaceId : Option Uuid) (userId : Uuid) :=
    tidy_of_reads (WorkspacesService.assertRole_reads workspaceId userId managers)
  have found (id : Uuid) (workspaceId : Option Uuid) (userId : Uuid) :=
    tidy_of_reads (SessionsService.findOne_reads id workspaceId userId)
  cases request with
  | create workspaceId userId dto =>
    refine Program.calls_bind ?_ fun _ => trivial
    refine Program.calls_bind (managed workspaceId userId) fun _ => ?_
    refine Program.calls_bind calls_randomHex fun _ => ?_
    exact calls_call rfl
  | update id workspaceId userId dto =>
    refine Program.calls_bind ?_ fun _ => trivial
    refine Program.calls_bind (found id workspaceId userId) fun session => ?_
    exact Program.calls_bind (calls_call (assign_keyed session dto)) fun _ => trivial
  | remove id workspaceId userId =>
    have creds := tidy_of_reads (WorkspacesService.getOpenwaCredentials_reads h workspaceId)
    refine Program.calls_bind ?_ fun _ => trivial
    refine Program.calls_bind (managed workspaceId userId) fun _ => ?_
    refine Program.calls_bind (found id workspaceId userId) fun session => ?_
    refine Program.calls_bind creds fun _ => ?_
    refine Program.calls_bind (Program.calls_attempt (OpenwaService.call_calls rfl)) fun _ => ?_
    exact Program.calls_bind (calls_call rfl) fun _ => trivial

/-! ### One row for an OpenWA id -/

/-- Primary keys and OpenWA ids are unique. -/
structure Unique (store : Store) : Prop where
  keys : ((store.db .sessions).map (Row.key .sessions)).Nodup
  names : ((store.db .sessions).map Session.sessionId).Nodup

/-- No session is written under an OpenWA id that another row has. -/
def Unshared (call : Call) (input : Input) (store : Store) : Prop :=
  ∀ row, call.Puts input store .sessions row →
    ∀ other ∈ store.db .sessions, other.sessionId = row.sessionId → other.id = row.id

theorem key_eq {session other : Session} :
    Row.key .sessions session = Row.key .sessions other ↔ session.id = other.id := by
  simp [Row.key]

/-- OpenWA ids are unique when they determine the primary key. -/
theorem names_nodup {rows : List Session} (keys : (rows.map (Row.key .sessions)).Nodup)
    (determines : ∀ row ∈ rows, ∀ other ∈ rows, row.sessionId = other.sessionId →
      row.id = other.id) :
    (rows.map Session.sessionId).Nodup := by
  refine List.Nodup.map_on (fun row member other member' same => ?_) keys.of_map
  exact Rows.unique keys member member' (key_eq.mpr (determines row member other member' same))

/-- **The step**: a call that writes no session under the id of another keeps ids unique. -/
theorem exec_unique {call : Call} {input : Input} {store : Store} (tidy : call.Tidy)
    (unshared : Unshared call input store) (unique : Unique store) :
    Unique (exec call input store).2 := by
  have changes := exec_changes call tidy.plain input store
  have keys := changes.keys .sessions unique.keys
  refine ⟨keys, names_nodup keys fun row member other member' same => ?_⟩
  obtain old | written := changes.rows .sessions row member
  · obtain old' | written' := changes.rows .sessions other member'
    · rw [List.inj_on_of_nodup_map unique.names old old' same]
    · exact unshared other written' row old same
  · obtain old' | written' := changes.rows .sessions other member'
    · exact (unshared row written other old' same.symm).symm
    · exact key_eq.mp (tidy.puts_key (by decide) (by decide) written written')

/-! ### The callback -/

/-- The workspace an event is sent to. -/
def workspaceOf : Event → Option Uuid
  | .sessionStatus workspaceId _ _ _ => some workspaceId
  | .sessionQr workspaceId _ _ => some workspaceId
  | .messageReceived workspaceId _ _ _ => some workspaceId
  | .messageSent workspaceId _ _ _ => workspaceId
  | .broadcastProgress workspaceId _ _ _ _ => some workspaceId
  | .automationTriggered workspaceId _ => some workspaceId

/-- The call reads, or it is for the session: it logs, shows or enqueues something of the session's
workspace. A job of a webhook is for the workspace of a stored webhook. -/
def For (stored : (table : Table) → Row table → Prop) (session : Session) : Call → Prop
  | .find _ _ => True
  | .findAutomations _ => True
  | .insert .logs draft => ∀ draft', draft = some draft' → ∀ input,
      (draft' input).workspaceId = session.workspaceId ∧ (draft' input).sessionId = some session.id
  | .emit event => workspaceOf event = some session.workspaceId
  | .add (.webhook job) _ _ => ∃ hook, stored .webhooks hook ∧ hook.id = job.webhookId ∧
      hook.workspaceId = session.workspaceId
  | .add (.automation job) _ _ => job.workspaceId = session.workspaceId ∧
      ∃ automation, stored .automations automation ∧ automation.id = job.automationId ∧
        automation.workspaceId = session.workspaceId
  | _ => False

section Callback

variable {stored : (table : Table) → Row table → Prop} {session : Session}

theorem hooks_for {event : String} {payload : Record} {hooks : List Webhook}
    (own : ∀ hook ∈ hooks, stored .webhooks hook ∧ hook.workspaceId = session.workspaceId) :
    (WebhooksService.enqueueEach event payload hooks).Calls (For stored session) := by
  induction hooks with
  | nil => trivial
  | cons hook hooks ih =>
    obtain ⟨known, same⟩ := own hook List.mem_cons_self
    refine Program.calls_bind (calls_call ⟨hook, known, rfl, same⟩) fun _ => ?_
    exact ih fun other member => own other (List.mem_cons_of_mem _ member)

theorem dispatch_for (event : String) (payload : Record) :
    (WebhooksService.dispatch session.workspaceId event payload).Given (Shows stored)
      (For stored session) fun _ => True := by
  refine Program.given_then (Program.given_perform trivial fun _ shown => shown)
    fun hooks shown => ?_
  refine Program.given_calls (fun _ => trivial)
    (Program.calls_bind (hooks_for fun hook member => ?_)
    fun _ => trivial)
  obtain ⟨known, matches_⟩ := shown hook (List.mem_filter.mp member).1
  exact ⟨known, beq_iff_eq.mp (Bool.and_eq_true_iff.mp matches_).1⟩

theorem runs_for {context : Record} {automations : List Automation}
    (own : ∀ automation ∈ automations,
      stored .automations automation ∧ automation.workspaceId = session.workspaceId) :
    (AutomationsService.enqueueEach context automations).Calls (For stored session) := by
  induction automations with
  | nil => trivial
  | cons automation rest ih =>
    obtain ⟨known, same⟩ := own automation List.mem_cons_self
    have enqueues : (AutomationsService.enqueueRun automation context).Calls (For stored session) :=
      Program.calls_bind (calls_call (congrArg some same)) fun _ =>
        Program.calls_bind (calls_call ⟨same, automation, known, rfl, same⟩) fun _ => trivial
    exact Program.calls_bind enqueues fun _ =>
      ih fun other member => own other (List.mem_cons_of_mem _ member)

theorem dispatchIncomingMessage_for (h : Helpers) (ctx : Record) :
    (AutomationsService.dispatchIncomingMessage h session.workspaceId ctx).Given (Shows stored)
      (For stored session) fun _ => True := by
  refine Program.given_then (Program.given_perform trivial fun _ shown => shown)
    fun candidates shown => ?_
  cases matches_ : AutomationsService.matched h ctx (candidates.map Prod.fst) with
  | error error => trivial
  | ok matching =>
    simp only [Svc.lift, Program.ret_bind]
    refine Program.given_calls (fun _ => trivial)
      (Program.calls_bind (runs_for fun automation member =>
      ?_) fun _ => trivial)
    obtain ⟨loaded, found, rfl⟩ :=
      List.mem_map.mp (AutomationsService.matched_subset matches_ member)
    obtain ⟨known, fits⟩ := shown loaded found
    simp only [Bool.and_eq_true] at fits
    exact ⟨known, beq_iff_eq.mp fits.1.1⟩

/-- **The rest of a callback is for the session it finds.** -/
theorem onMessage_routed (stored : (table : Table) → Row table → Prop) (h : Helpers)
    (dto : Record) :
    ∃ rest : Option Session → Svc InboundReply,
      InboundController.onMessage h dto =
        SessionsService.findByOpenwaSessionId (textOf h (dto.get "session")) >>= rest ∧
      ∀ session, (rest (some session)).Given (Shows stored) (For stored session) fun _ => True := by
  refine ⟨_, rfl, fun session => ?_⟩
  have logs : (MessagesService.record ⟨some session.workspaceId, some session.id, none, none,
      .incoming, textOf h (dto.get "from"), none, .text, textOf h (dto.get "body"),
        .delivered, none,
      none⟩).Calls (For stored session) := by
    refine calls_call fun draft drafted input => ?_
    cases drafted
    exact ⟨rfl, rfl⟩
  refine Program.given_then (Program.given_calls (fun _ => trivial) (Program.calls_attempt logs))
    fun _ _ => ?_
  refine Program.given_then (Program.given_perform rfl fun _ _ => trivial) fun _ _ => ?_
  refine Program.given_then (dispatch_for _ _) fun _ _ => ?_
  exact Program.given_then (dispatchIncomingMessage_for h _) fun _ _ => trivial

end Callback

/-- A lookup by OpenWA id has one answer. -/
theorem found_unique {store : Store} (unique : Unique store) {session : Session}
    (member : session ∈ store.db .sessions) :
    ((store.db .sessions).filter fun other =>
      Svc.whereIs (some session.sessionId) other.sessionId).head? = some session := by
  rw [List.head?_filter]
  cases found : (store.db .sessions).find? fun other =>
      Svc.whereIs (some session.sessionId) other.sessionId with
  | none =>
    have missed := List.find?_eq_none.mp found session member
    simp [Svc.whereIs] at missed
  | some other =>
    have named : other.sessionId = session.sessionId := by
      simpa [Svc.whereIs] using List.find?_some found
    rw [List.inj_on_of_nodup_map unique.names (List.mem_of_find?_eq_some found) member named]

/-- The callback names a session. -/
def Names (h : Helpers) (dto : Record) (session : Session) : Prop :=
  textOf h (dto.get "session") = some session.sessionId

/-- **Inbound messages have one owner**, as long as no session is written under an OpenWA id another
one has: a lookup can return only that session, and everything a callback that names it leads to is
for its workspace, whatever happens to the store on the way. -/
theorem one_owner (h : Helpers) (start : Store) (moves : List Move) (pool : Pool)
    (begins : Unique start)
    (unshared : (system h).Meets (Executes Unshared) (Machine.Pool.idle start) moves)
    (reached : (system h).run (Machine.Pool.idle start) moves = some pool) :
    Unique pool.shared ∧ ∀ session ∈ pool.shared.db .sessions,
      (∀ tape found, ((SessionsService.findByOpenwaSessionId (some session.sessionId)).run exec tape
        pool.shared).1 = .ok found → found = some session) ∧
      ∀ dto tape stores, Names h dto session → stores 0 = pool.shared →
        ∀ exchange ∈ (InboundController.onMessage h dto).exchanges (Program.found exec) tape stores,
          For (fun table row => ∃ index, row ∈ (stores index).db table) session
            exchange.request := by
  have unique := kept_run (program_tidy h) (fun _ _ _ tidy apart => exec_unique tidy apart) begins
    unshared reached
  refine ⟨unique, fun session member => ⟨fun tape found ran => ?_, ?_⟩⟩
  · rw [findOne_answers ran, ← List.head?_filter]
    exact found_unique unique member
  · intro dto tape stores names here exchange exchanged
    let stored (table : Table) (row : Row table) : Prop := ∃ index, row ∈ (stores index).db table
    obtain ⟨rest, same, routed⟩ := onMessage_routed stored h dto
    rw [same, names] at exchanged
    unfold SessionsService.findByOpenwaSessionId Svc.findOne Svc.find Svc.call at exchanged
    rw [Program.bind_assoc] at exchanged
    obtain ⟨error, failed⟩ | answered := exec_find .sessions (fun other =>
      Svc.whereIs (some session.sessionId) other.sessionId) (tape.later 0) (stores 0)
    · rw [(Program.perform_error (Program.found exec) (congrArg Prod.fst failed) _).2,
        List.mem_singleton] at exchanged
      rw [exchanged]
      trivial
    · rw [(Program.perform_ok (Program.found exec) (congrArg Prod.fst answered) _).2] at exchanged
      rcases List.mem_cons.mp exchanged with rfl | later
      · trivial
      · rw [here] at later
        simp only [Program.pure_eq, Program.ret_bind, found_unique unique member] at later
        exact exchanged_given (routed session)
          (fun index table row stored => ⟨index + 1, stored⟩) exchange later

namespace Example

/-- An input of a move: ids show its number. -/
def at_ (number : Nat) : Input :=
  { WaAutomation.Example.fine with now := number, ids := fun _ => toString number }

/-- Two workspaces with their owners. -/
def start : Store :=
  ⟨fun | .members => [⟨"w", "u", "owner"⟩, ⟨"v", "x", "owner"⟩] | _ => [], [], 0, [],
    fun _ _ => none⟩

/-- The creation of a session with a given OpenWA id. -/
def creation (slot : Nat) (workspaceId userId : Uuid) : List Move :=
  [.start slot (.create (some workspaceId) userId ⟨"line", some "sales-01"⟩) (at_ slot),
    .resume slot (at_ slot), .resume slot (at_ slot)]

/-- The callback for a message to that id. -/
def callback : Record := [("session", .str "sales-01"), ("from", .str "62"), ("body", .str "hi")]

end Example

theorem one_owner_example :
    ∃ pool session tape found,
      (system WaAutomation.Example.helpers).run (Machine.Pool.idle Example.start)
        (Example.creation 0 "w" "u") = some pool ∧
      session ∈ pool.shared.db .sessions ∧
      Names WaAutomation.Example.helpers Example.callback session ∧
      ((SessionsService.findByOpenwaSessionId (some session.sessionId)).run exec tape
        pool.shared).1 = .ok found ∧ found = some session := by
  refine ⟨_, _, ⟨Example.at_ 1, fun _ => Example.at_ 1⟩, _, rfl, List.mem_cons_self, rfl, rfl, ?_⟩
  refine ((one_owner WaAutomation.Example.helpers Example.start (Example.creation 0 "w" "u") _
    ⟨List.nodup_nil, List.nodup_nil⟩ ?_ rfl).2 _ List.mem_cons_self).1
      ⟨Example.at_ 1, fun _ => Example.at_ 1⟩ _ rfl
  refine ⟨fun _ _ _ same => (by cases same), fun _ moved => ?_⟩
  cases moved
  refine ⟨fun _ _ _ _ _ _ _ _ member => (by cases member), fun _ moved => ?_⟩
  cases moved
  exact ⟨fun _ _ _ _ _ _ _ _ member => (by cases member), fun _ _ => trivial⟩

/-- **A session with two owners**: a second workspace creates a session under an id that is in use,
and receives the messages of the first one. -/
theorem two_owners :
    ∃ pool,
      (system WaAutomation.Example.helpers).run (Machine.Pool.idle Example.start)
        (Example.creation 0 "v" "x" ++ Example.creation 1 "w" "u") = some pool ∧
      (pool.shared.db .sessions).map (fun session => (session.workspaceId, session.sessionId)) =
        [("v", "sales-01"), ("w", "sales-01")] ∧
      ¬Unique pool.shared ∧
      (((InboundController.onMessage WaAutomation.Example.helpers Example.callback).run exec
        ⟨Example.at_ 1, fun _ => Example.at_ 1⟩ pool.shared).2.2.db .logs).map
          MessageLog.workspaceId = ["v"] := by
  refine ⟨_, rfl, rfl, fun unique => ?_, rfl⟩
  exact absurd unique.names (by decide)

end WaAutomation.Routing
