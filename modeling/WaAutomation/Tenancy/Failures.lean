/-
**Requests that fail leave nothing behind.**

An endpoint that makes one lasting call, and nothing that can fail after it, is whole: whatever
other requests do between its calls, and whichever of its calls fails, a request that fails has
changed no row and enqueued no job. The other endpoints are those that write rows or jobs one by
one (`importContacts`, `sendBulk`), that delete actions before they save new ones
(`updateAutomation`), that save a status before they enqueue the job (`sendBroadcast`), and that
call OpenWA or load the session again once its status is saved (`startSession`, `stopSession`).

* `Clean` is the property of a program, with one rule for what comes before the lasting call and
  one for the call itself;
* `endpoint_clean` goes through the endpoints, and `failure_spares` reads it off a run.
-/

import WaAutomation.Tenancy.Guard
import WaAutomation.Model.Services

set_option linter.unusedSectionVars false

namespace WaAutomation.Failures

open Library Program

/-! ### Lasting calls -/

/-- The call may change rows or the queue. -/
def lasts : Call → Bool
  | .find _ _ | .findStatus _ | .findAutomations _ => false
  | .openwa _ | .post _ | .emit _ | .sleep _ => false
  | _ => true

/-- The call may have changed something. -/
def lasting (exchange : Exchange) : Bool := lasts exchange.request && exchange.reply.isOk

/-- Neither rows nor the queue changed. -/
def Spared (before after : Store) : Prop := after.db = before.db ∧ after.jobs = before.jobs

theorem quiet_writes {call : Call} (quiet : lasts call = false) (table : Table) :
    call.writes table = false := by
  cases call <;> first | rfl | cases quiet

theorem quiet_enqueues {call : Call} (quiet : lasts call = false) : call.enqueues = false := by
  cases call <;> first | rfl | cases quiet

/-- A write of the database that fails. -/
theorem commit_fails {α : Type} {store : Store} {value : α} {outcome : Except Err Db}
    (failed : (store.commit value outcome).1.isOk = false) :
    (store.commit value outcome).2 = store := by
  cases outcome with
  | error error => rfl
  | ok db => cases failed

theorem save_fails {store : Store} {table : Table} {entity : Entity (Row table)}
    (failed : (store.save table entity).1.isOk = false) :
    (store.save table entity).2 = store := by
  obtain ⟨error, same⟩ | ⟨_, _, _, _, _, same⟩ | ⟨_, _, _, _, same⟩ :=
    store.save_cases table entity
  · rw [same]
  · rw [same] at failed
    cases failed
  · rw [same] at failed
    cases failed

/-- **A call that is not lasting spares the store**, and so does a lasting one that fails. -/
theorem exec_spares {call : Call} {input : Input} {store : Store}
    (held : lasting ⟨call, (exec call input store).1⟩ = false) :
    Spared store (exec call input store).2 := by
  by_cases quiet : lasts call = false
  · exact ⟨funext fun table => exec_other call input store (quiet_writes quiet table),
      (exec_queue call input store (quiet_enqueues quiet)).1⟩
  have failed : (exec call input store).1.isOk = false := by
    rw [lasting, Bool.eq_true_of_not_eq_false quiet, Bool.true_and] at held
    exact held
  obtain ⟨_, _, _, fault⟩ | performed := exec_cases call input store
  · rw [fault]
    exact ⟨rfl, rfl⟩
  rw [performed] at failed ⊢
  have spared {after : Store} (same : after = store) : Spared store after := by
    rw [same]
    exact ⟨rfl, rfl⟩
  cases call with
  | insert table draft =>
    cases draft with
    | none => exact ⟨rfl, rfl⟩
    | some draft =>
      simp only [perform, Store.insert] at failed ⊢
      cases inserted : store.db.insert table (draft input) with
      | error error => exact ⟨rfl, rfl⟩
      | ok db =>
        rw [inserted] at failed
        cases failed
  | insertBroadcast draft recipients =>
    cases draft with
    | none => exact ⟨rfl, rfl⟩
    | some draft =>
      simp only [perform, Store.insertBroadcast] at failed ⊢
      cases inserted : store.db.insert .broadcasts (draft input) with
      | error error => exact ⟨rfl, rfl⟩
      | ok db =>
        rw [inserted] at failed
        exact spared (commit_fails failed)
  | insertAutomation draft actions =>
    cases draft with
    | none => exact ⟨rfl, rfl⟩
    | some draft =>
      simp only [perform, Store.insertAutomation] at failed ⊢
      cases inserted : store.db.insert .automations (draft input) with
      | error error => exact ⟨rfl, rfl⟩
      | ok db =>
        rw [inserted] at failed
        dsimp only at failed ⊢
        rw [commit_fails failed]
        exact ⟨rfl, rfl⟩
  | save table entity => exact spared (save_fails failed)
  | saveAutomation entity actions =>
    simp only [perform, Store.saveAutomation] at failed ⊢
    cases saved : store.save .automations entity with
    | mk result written =>
      rw [saved] at failed
      cases result with
      | error error => exact ⟨rfl, rfl⟩
      | ok _ =>
        dsimp only at failed ⊢
        split at failed
        · rename_i detached
          rw [if_pos detached]
          exact ⟨rfl, rfl⟩
        · rename_i attached
          rw [if_neg attached]
          split at failed
          · exact ⟨rfl, rfl⟩
          · cases failed
  | update table matching change => exact spared (commit_fails failed)
  | remove | deleteActions | add | elsewhere => cases failed
  | _ => exact absurd rfl quiet

/-! ### Programs that fail cleanly -/

/-- What is shown to the outside is shown. -/
def Fair (call : Call) (reply : Except Err (Resp call)) : Prop :=
  match call, reply with
  | .emit _, .error _ => False
  | _, _ => True

theorem exec_fair (call : Call) (input : Input) (store : Store) :
    Fair call (exec call input store).1 := by
  cases call <;> trivial

section Clean

variable {α β : Type}

/-- A run of the program that fails has not changed anything. -/
def Clean (program : Svc α) : Prop :=
  program.Traces Fair fun trace result => result.isOk = false →
    ∀ exchange ∈ trace, lasting exchange = false

/-- The program does not fail. -/
def Sure (program : Svc α) : Prop := program.Traces Fair fun _ result => result.isOk = true

/-- The program makes no lasting call. -/
abbrev Quiet (program : Svc α) : Prop := program.Calls fun call => lasts call = false

theorem quiet_lasting {exchange : Exchange} (quiet : lasts exchange.request = false) :
    lasting exchange = false := by
  rw [lasting, quiet, Bool.false_and]

theorem quiet_of_reads {program : Svc α} (reads : Reads program) : Quiet program :=
  calls_of_reads reads fun call reads => (by cases call <;> first | rfl | cases reads)

theorem clean_quiet {program : Svc α} (quiet : Quiet program) : Clean program :=
  traces_calls quiet fun _ _ calls _ exchange member => quiet_lasting (calls exchange member)

/-- Quiet calls first. -/
theorem clean_then {program : Svc α} {rest : α → Svc β} (quiet : Quiet program)
    (later : ∀ value, Clean (rest value)) : Clean (program >>= rest) := by
  refine traces_bind (traces_calls quiet fun trace result calls => ?_)
  have first (exchange : Exchange) (member : exchange ∈ trace) : lasting exchange = false :=
    quiet_lasting (calls exchange member)
  cases result with
  | error error => exact fun _ => first
  | ok value =>
    refine traces_mono (fun after result held failed exchange member => ?_) (later value)
    obtain before | now := List.mem_append.mp member
    · exact first exchange before
    · exact held failed exchange now

/-- **The lasting call**: nothing that follows it fails. -/
theorem clean_call {call : Call} {rest : Resp call → Svc α} (sure : ∀ value, Sure (rest value)) :
    Clean (Svc.call call >>= rest) := by
  intro reply fair
  cases reply with
  | error error =>
    intro _ exchange member
    rw [List.mem_singleton.mp member, lasting, Bool.and_eq_false_iff]
    exact .inr rfl
  | ok value =>
    refine traces_mono (fun trace result ok failed => ?_) (sure value)
    rw [ok] at failed
    cases failed

theorem sure_ret (value : α) : Sure (Program.ret value) := rfl

theorem clean_last {call : Call} : Clean (Svc.call call) :=
  fun reply _ => (by
    cases reply with
    | ok value => exact fun failed => by cases failed
    | error error =>
      intro _ exchange member
      rw [List.mem_singleton.mp member, lasting, Bool.and_eq_false_iff]
      exact .inr rfl)

theorem clean_return {call : Call} {value : Resp call → α} :
    Clean (Svc.call call >>= fun reply => Program.ret (value reply)) :=
  clean_call fun _ => sure_ret _

end Clean

/-! ### The endpoints -/

/-- The endpoints that are whole. -/
def whole : Endpoint → Bool
  | .importContacts _ | .sendBulk _ | .updateAutomation _ _ => false
  | .sendBroadcast _ | .startSession _ | .stopSession _ => false
  | _ => true

/-- Saving a status and showing it. -/
theorem setStatus_clean {α : Type} {session : Session} {status : SessionStatus}
    {phone : Field String} {value : Session → α} :
    Clean (SessionsService.setStatus session status phone >>= fun row =>
      Program.ret (value row)) := by
  unfold SessionsService.setStatus
  simp only [Program.bind_assoc]
  refine clean_then calls_now fun now => clean_call fun _ reply fair => ?_
  cases reply with
  | ok _ => rfl
  | error error => exact fair.elim

/-- **A whole endpoint fails cleanly.** -/
theorem endpoint_clean (h : Helpers) (ws : Option Uuid) (uid : Uuid) (endpoint : Endpoint)
    (is_whole : whole endpoint = true) : Clean (endpoint.program h ws uid) := by
  have member := quiet_of_reads (WorkspacesService.assertMember_reads ws uid)
  have managed := quiet_of_reads (WorkspacesService.assertRole_reads ws uid managers)
  have creds := quiet_of_reads (WorkspacesService.getOpenwaCredentials_reads h ws)
  have session (id : Uuid) := quiet_of_reads (SessionsService.findOne_reads id ws uid)
  have contact (id : Uuid) := quiet_of_reads (ContactsService.findOne_reads id ws uid)
  have group (id : Uuid) := quiet_of_reads (ContactsService.findGroup_reads id ws)
  have broadcast (id : Uuid) := quiet_of_reads (BroadcastsService.findOne_reads id ws uid)
  have automation (id : Uuid) := quiet_of_reads (AutomationsService.findOne_reads id ws uid)
  have webhook (id : Uuid) := quiet_of_reads (WebhooksService.findOne_reads id ws uid)
  have openwa {creds : OpenwaCredentials} {method : OpenwaMethod} {session : SessionRef} :
      Quiet (OpenwaService.call creds method session none) := OpenwaService.call_calls rfl
  have lists {table : Table} {matching : Row table → Bool} : Quiet (Svc.find table matching) :=
    calls_call rfl
  have count {table : Table} {matching : Row table → Bool} :
      Quiet (AnalyticsService.count table matching) := calls_bind lists fun _ => trivial
  cases endpoint with
  | createGroup dto => exact clean_then member fun _ => clean_last
  | updateGroup id dto =>
    exact clean_then member fun _ => clean_then (group id) fun _ => clean_return
  | removeGroup id =>
    exact clean_then member fun _ => clean_then (group id) fun _ => clean_return
  | createContact dto => exact clean_then member fun _ => clean_last
  | updateContact id dto => exact clean_then (contact id) fun _ => clean_return
  | removeContact id => exact clean_then (contact id) fun _ => clean_return
  | blacklistContact id => exact clean_then (contact id) fun _ => clean_return
  | createSession dto =>
    exact clean_then managed fun _ => clean_then calls_randomHex fun _ => clean_last
  | updateSession id dto => exact clean_then (session id) fun _ => clean_return
  | sessionQr id =>
    refine clean_then (session id) fun _ => clean_then creds fun _ => clean_then openwa
      fun res => ?_
    split
    · exact clean_quiet trivial
    · exact clean_return
  | sessionStatus id =>
    refine clean_then (session id) fun _ => clean_then creds fun _ =>
      clean_then (calls_attempt openwa) fun res => ?_
    dsimp only
    split
    · exact clean_quiet trivial
    · split
      · exact clean_quiet trivial
      · exact setStatus_clean
  | removeSession id =>
    exact clean_then managed fun _ => clean_then (session id) fun _ => clean_then creds fun _ =>
      clean_then (calls_attempt openwa) fun _ => clean_return
  | sendMessage dto =>
    exact clean_then member fun _ => clean_then (session _) fun _ => clean_return
  | createBroadcast dto =>
    refine clean_then managed fun _ => clean_then (session _) fun _ =>
      clean_then (quiet_of_reads (ContactsService.resolvePhones_reads ws _)) fun _ => ?_
    dsimp only
    split
    · exact clean_quiet trivial
    · exact clean_last
  | updateBroadcast id dto =>
    refine clean_then managed fun _ => clean_then (broadcast id) fun row => ?_
    split
    · exact clean_quiet trivial
    · exact clean_return
  | removeBroadcast id =>
    exact clean_then managed fun _ => clean_then (broadcast id) fun _ => clean_return
  | cancelBroadcast id =>
    exact clean_then managed fun _ => clean_then (broadcast id) fun _ => clean_return
  | createAutomation dto =>
    exact clean_then managed fun _ => clean_then (AutomationsService.withPath_calls dto) fun _ =>
      clean_last
  | removeAutomation id =>
    exact clean_then managed fun _ => clean_then (automation id) fun _ => clean_return
  | enableAutomation id =>
    exact clean_then managed fun _ => clean_then (automation id) fun _ => clean_return
  | disableAutomation id =>
    exact clean_then managed fun _ => clean_then (automation id) fun _ => clean_return
  | testAutomation id body =>
    exact clean_then (automation id) fun _ => clean_then (calls_call rfl) fun _ => clean_return
  | createWebhook dto => exact clean_then managed fun _ => clean_last
  | updateWebhook id dto =>
    exact clean_then managed fun _ => clean_then (webhook id) fun _ => clean_return
  | removeWebhook id =>
    exact clean_then managed fun _ => clean_then (webhook id) fun _ => clean_return
  | testWebhook id =>
    exact clean_then (webhook id) fun _ => clean_then calls_now fun _ => clean_return
  | createApiKey dto =>
    exact clean_then managed fun _ => clean_then calls_randomHex fun _ => clean_return
  | removeApiKey id =>
    refine clean_then managed fun _ => clean_then (calls_findOne rfl) fun found => ?_
    cases found with
    | none => exact clean_quiet trivial
    | some key => exact clean_return
  | listGroups => exact clean_quiet (calls_bind member fun _ => lists)
  | findContacts query =>
    exact clean_quiet (calls_bind member fun _ => calls_bind lists fun _ => trivial)
  | findContact id => exact clean_quiet (contact id)
  | findSessions => exact clean_quiet (calls_bind member fun _ => lists)
  | findSession id => exact clean_quiet (session id)
  | findLogs query =>
    exact clean_quiet (calls_bind member fun _ => calls_bind lists fun _ => trivial)
  | findLog id =>
    refine clean_quiet (calls_bind member fun _ => calls_bind (calls_findOne rfl) fun found => ?_)
    cases found <;> trivial
  | findBroadcasts =>
    exact clean_quiet (calls_bind member fun _ => calls_bind lists fun _ => trivial)
  | findBroadcast id => exact clean_quiet (broadcast id)
  | broadcastStatus id => exact clean_quiet (calls_bind (broadcast id) fun _ => trivial)
  | broadcastReport id =>
    exact clean_quiet (calls_bind (broadcast id) fun _ => calls_bind lists fun _ => trivial)
  | findAutomations => exact clean_quiet (calls_bind member fun _ => calls_call rfl)
  | findAutomation id => exact clean_quiet (automation id)
  | findWebhooks => exact clean_quiet (calls_bind member fun _ => lists)
  | findWebhook id => exact clean_quiet (webhook id)
  | webhookLogs id =>
    exact clean_quiet (calls_bind (webhook id) fun _ => calls_bind lists fun _ => trivial)
  | findApiKeys => exact clean_quiet (calls_bind member fun _ => lists)
  | overview =>
    exact clean_quiet (calls_bind member fun _ => calls_bind calls_now fun _ =>
      calls_bind count fun _ => calls_bind count fun _ => calls_bind count fun _ =>
        calls_bind count fun _ => calls_bind count fun _ => calls_bind count fun _ => trivial)
  | messages sent until_ =>
    exact clean_quiet (calls_bind member fun _ => calls_bind calls_now fun _ =>
      calls_bind lists fun _ => trivial)
  | automationStats =>
    exact clean_quiet (calls_bind member fun _ => calls_bind lists fun _ => trivial)
  | sessionStats =>
    exact clean_quiet (calls_bind member fun _ => calls_bind lists fun _ =>
      calls_bind lists fun _ => trivial)
  | broadcastStats =>
    exact clean_quiet (calls_bind member fun _ => calls_bind lists fun _ => trivial)
  | _ => cases is_whole

/-! ### Runs -/

/-- **A request that fails spares the store**: whatever the others do between its calls, and
whichever of its calls fails, none of its calls has changed a row or the queue. -/
theorem failure_spares (h : Helpers) (ws : Option Uuid) (uid : Uuid) (endpoint : Endpoint)
    (is_whole : whole endpoint = true) (tape : Tape Input) (stores : Nat → Store)
    (failed : ((endpoint.program h ws uid).run (Program.found exec) tape stores).1.isOk = false) :
    ∀ visit ∈ (endpoint.program h ws uid).visits (Program.found exec) tape stores,
      Spared (visit.2.2 0) (exec visit.1 visit.2.1 (visit.2.2 0)).2 := by
  have replies (call : Call) (input : Input) (stores : Nat → Store) :
      Fair call (Program.found exec call input stores).1 := exec_fair call input (stores 0)
  have clean := traces_run replies tape stores (endpoint_clean h ws uid endpoint is_whole) failed
  rw [exchanges_visits] at clean
  intro visit member
  exact exec_spares (clean _ (List.mem_map_of_mem member))

namespace Example

/-- The insert fails. -/
def tape : Tape Input :=
  ⟨WaAutomation.Example.fine, fun number =>
    if number = 1 then { WaAutomation.Example.fine with fault := some "down" }
    else WaAutomation.Example.fine⟩

end Example

/-- A group whose insert fails: the second call of the request leaves the rows and the queue. -/
theorem failure_spares_example :
    ∃ call input, lasts call = true ∧ Spared Guard.shops (exec call input Guard.shops).2 :=
  ⟨_, _, rfl, failure_spares WaAutomation.Example.helpers (some "w") "u"
    (.createGroup ⟨"readers", none⟩) rfl Example.tape (fun _ => Guard.shops) rfl _
    (.tail _ (.head _))⟩

end WaAutomation.Failures
