/-
**The tenants do not interfere.**

`system` runs any number of errands at a time: endpoints called for a workspace, and attempts of the
jobs of the broadcast and the message queue. A `Lane` is a workspace with a number, and holds one
errand after another; the machine keeps what every errand came to. Between two calls of one errand
the errands of all lanes may make theirs, in any order.

`noninterference`: in every run, a workspace gets the replies and is left with the rows, the jobs
and the journal it would get if the other workspaces made no move at all. All that is assumed is
that ids are generated once: `home` tells for whom.
-/

import WaAutomation.Tenancy.Tenants

set_option linter.unusedSectionVars false

namespace WaAutomation

open Library Program

/-- The data of a job of `wa-messages`. -/
def Job.message? : Job → Option SendMessageJob
  | .message data => some data
  | _ => none

namespace Tenants

/-! ### The system -/

/-- What is run on behalf of a workspace. -/
inductive Errand where
  | request (uid : Uuid) (endpoint : Endpoint)
  | broadcast (data : BroadcastJob)
  | message (data : SendMessageJob)

@[reducible] def Errand.Answer : Errand → Type
  | .request _ endpoint => endpoint.Answer
  | .broadcast _ => RunResult
  | .message _ => Option String

/-- The program of an errand, its answer but for the number of a job. -/
def Errand.program (h : Helpers) (w : Uuid) : (errand : Errand) → Svc errand.Answer
  | .request uid endpoint => do
      let answer ← endpoint.program h (some w) uid
      return unnumbered endpoint answer
  | .broadcast data => BroadcastProcessor.process h data
  | .message data => MessageProcessor.process h data

/-- An attempt is of a queued job of the workspace. -/
def Errand.admits (home : Uuid → Uuid) (w : Uuid) (store : Store) : Errand → Bool
  | .request _ _ => true
  | .broadcast data => home data.broadcastId == w &&
      store.jobs.any fun job => job.job.broadcast? == some data
  | .message data => data.workspaceId == some w &&
      store.jobs.any fun job => Job.message? job.job == some data

/-- A workspace and a number. -/
abbrev Lane := Uuid × Nat

/-- What an errand came to. -/
abbrev Outcome := Except Err ((errand : Errand) × errand.Answer)

/-- The store, and what the errands of the lanes came to. -/
structure Site where
  store : Store
  outcomes : List (Lane × Outcome)

def system (h : Helpers) (home : Uuid → Uuid) :
    Machine Err Input Call Site Resp Lane (fun _ => Errand)
      fun _ => (errand : Errand) × errand.Answer where
  exec call input site :=
    ((exec call input site.store).1, { site with store := (exec call input site.store).2 })
  program lane errand := do
    let answer ← errand.program h lane.1
    return ⟨errand, answer⟩
  admits lane errand site := errand.admits home lane.1 site.store
  leave lane _ outcome site := { site with outcomes := site.outcomes ++ [(lane, outcome)] }

abbrev Pool := Machine.Pool Err Input Call Site Resp Lane (fun _ => Errand)
  fun _ => (errand : Errand) × errand.Answer

abbrev Move := Machine.Move Input Lane fun _ => Errand

/-- What a workspace has to do with. -/
def Site.part (home : Uuid → Uuid) (w : Uuid) (site : Site) : Site :=
  ⟨site.store.part home w, site.outcomes.filter fun outcome => outcome.1.1 == w⟩

/-! ### What is to be shown of single calls -/

section Conditions

variable {home : Uuid → Uuid} {w : Uuid}

theorem errand_tenant (h : Helpers) {store : Store} {errand : Errand}
    (admits : errand.admits home w store = true) :
    Tenant home w (fun _ => True) (errand.program h w) := by
  cases errand with
  | request uid endpoint => exact endpoint_tenant h uid endpoint
  | broadcast data => exact broadcastRun_tenant h (beq_iff_eq.mp (Bool.and_eq_true_iff.mp admits).1)
  | message data => exact message_tenant h (beq_iff_eq.mp (Bool.and_eq_true_iff.mp admits).1)

/-- Whether a job of the workspace is queued can be told from its own jobs. -/
theorem any_jobsIn {jobs : List QueuedJob} {is_job : Job → Bool}
    (ours : ∀ job, is_job job = true → job.workspace home = some w) :
    jobs.any (fun job => is_job job.job) =
      (Store.jobsIn home w jobs).any fun job => is_job job.job := by
  rw [Store.jobsIn, List.any_map, List.any_filter]
  refine congrArg jobs.any (funext fun job => ?_)
  show is_job job.job = (job.job.workspace home == some w && is_job job.job)
  by_cases hit : is_job job.job = true
  · rw [hit, ours _ hit, beq_self_eq_true, Bool.and_self]
  · rw [Bool.not_eq_true] at hit
    rw [hit, Bool.and_false]

/-- A question about the queue that only its own jobs answer. -/
theorem queued_part {jobs jobs' : List QueuedJob} (named : Bool) (is_job : Job → Bool)
    (same : Store.jobsIn home w jobs = Store.jobsIn home w jobs')
    (ours : named = true → ∀ job, is_job job = true → job.workspace home = some w) :
    (named && jobs.any fun job => is_job job.job) =
      (named && jobs'.any fun job => is_job job.job) := by
  cases named with
  | false => rfl
  | true => rw [any_jobsIn (ours rfl), same, ← any_jobsIn (ours rfl)]

theorem admits_part {store store' : Store} (same : store.part home w = store'.part home w)
    (errand : Errand) : errand.admits home w store = errand.admits home w store' := by
  have jobs : Store.jobsIn home w store.jobs = Store.jobsIn home w store'.jobs :=
    congrArg Store.jobs same
  cases errand with
  | request uid endpoint => rfl
  | broadcast data =>
    refine queued_part (home data.broadcastId == w) (fun job => job.broadcast? == some data) jobs
      fun here job is_job => ?_
    cases job with
    | broadcast other =>
      cases Option.some.inj (beq_iff_eq.mp is_job)
      exact congrArg some (beq_iff_eq.mp here)
    | _ => cases is_job
  | message data =>
    refine queued_part (data.workspaceId == some w) (fun job => Job.message? job == some data) jobs
      fun here job is_job => ?_
    cases job with
    | message other =>
      cases Option.some.inj (beq_iff_eq.mp is_job)
      exact beq_iff_eq.mp here
    | _ => cases is_job

/-- **The conditions of noninterference**, for the lanes of one workspace. -/
theorem unwinding (h : Helpers) (home : Uuid → Uuid) (w : Uuid) :
    (system h home).Unwinding (fun lane => lane.1 = w) (Site.part home w) (Fair home) hear
      (fun site => site.store.db.Homed home) (fun lane => Local home lane.1)
      (fun lane input => input.homed home lane.1) where
  programs lane errand site admits :=
    discreet_then (errand_tenant h admits) fun _ _ => trivial
  keeps lane call input site homed asks ids := (exec_contained asks ids).homed site.store homed
  keeps_leave _ _ _ _ homed := homed
  hidden lane call input site foreign homed asks ids := by
    have kept := (exec_contained asks ids).hidden site.store w (Ne.symm foreign) homed
    exact congrArg (fun store => (⟨store, _⟩ : Site)) kept
  hidden_leave lane errand outcome site foreign := by
    have others : (lane.1 == w) = false := beq_eq_false_iff_ne.mpr foreign
    simp only [Site.part, system, List.filter_append, List.filter_cons, others,
      Bool.false_eq_true, if_false, List.filter_nil, List.append_nil]
  own lane call input site site' here homed homed' same asks ids := by
    have stores : site.store.part home lane.1 = site'.store.part home lane.1 :=
      here ▸ congrArg Site.store same
    obtain ⟨heard, left⟩ := (exec_contained asks ids).own site.store site'.store homed homed' stores
    refine ⟨heard, ?_⟩
    have outcomes := congrArg Site.outcomes same
    simp only [Site.part, system] at outcomes ⊢
    rw [← here, left, here, outcomes]
  own_admits lane errand site site' here same :=
    admits_part (here ▸ congrArg Site.store same) errand
  own_leave lane errand outcome site site' here same := by
    have stores := congrArg Site.store same
    have outcomes := congrArg Site.outcomes same
    simp only [Site.part, system, List.filter_append] at stores outcomes ⊢
    rw [stores, outcomes]

end Conditions

/-! ### Runs -/

/-- **The tenants do not interfere.** After any run, and after the run of the errands of one
workspace alone, this workspace has got the same outcomes, has the same rows, jobs and journal, and
has its unfinished errands at the same points. The two runs may even begin with different rows of
the others. -/
theorem noninterference (h : Helpers) (home : Uuid → Uuid) (w : Uuid) {site site' : Site}
    (homed : site.store.db.Homed home) (homed' : site'.store.db.Homed home)
    (same : site.part home w = site'.part home w) {moves : List Move}
    (ids : ∀ move ∈ moves, move.input.homed home move.slot.1) {pool : Pool}
    (reached : (system h home).run (Machine.Pool.idle site) moves = some pool) :
    ∃ alone, (system h home).run (Machine.Pool.idle site')
        (Machine.purge (fun lane => lane.1 = w) moves) = some alone ∧
      pool.shared.part home w = alone.shared.part home w ∧
      ∀ number, pool.thread (w, number) = alone.thread (w, number) := by
  have begins : Machine.Alike (fun lane => lane.1 = w) (Site.part home w)
      (Machine.Pool.idle site : Pool) (Machine.Pool.idle site') := ⟨same, fun _ _ => rfl⟩
  obtain ⟨alone, ran, alike⟩ := Machine.run_purge (unwinding h home w) ids begins
    (Machine.orderly_idle homed) (Machine.orderly_idle homed') reached
  exact ⟨alone, ran, alike.shared, fun number => alike.thread (w, number) rfl⟩

namespace Example

/-- The ids of `x` and of its contact, and one to be generated for it; all others are of `w`. -/
def home (id : Uuid) : Uuid := if id = "x" ∨ id = "c" ∨ id = "g" then "x" else "w"

def site : Site := ⟨Guard.shops, []⟩

def input (id : Uuid) : Input := { WaAutomation.Example.fine with ids := fun _ => id }

/-- While `x` deletes a contact and then creates a group, `w` creates a group too. -/
def moves : List Move :=
  [.start ("x", 0) (.request "t" (.removeContact "c")) (input "g"),
    .start ("w", 0) (.request "u" (.createGroup ⟨"readers", none⟩)) (input "r"),
    .resume ("x", 0) (input "g"), .resume ("w", 0) (input "r"), .resume ("x", 0) (input "g"),
    .start ("x", 1) (.request "t" (.createGroup ⟨"riders", none⟩)) (input "g"),
    .resume ("x", 1) (input "g"), .resume ("x", 1) (input "g"), .resume ("w", 0) (input "r"),
    .resume ("x", 0) (input "g")]

theorem site_homed : site.store.db.Homed home := by
  intro table
  cases table <;> decide

end Example

/-- What `w` gets while `x` is busy is what it gets alone. -/
theorem noninterference_example :
    ∃ pool alone,
      (system WaAutomation.Example.helpers Example.home).run (Machine.Pool.idle Example.site)
        Example.moves = some pool ∧
      (system WaAutomation.Example.helpers Example.home).run (Machine.Pool.idle Example.site)
        (Machine.purge (fun lane => lane.1 = "w") Example.moves) = some alone ∧
      pool.shared.part Example.home "w" = alone.shared.part Example.home "w" := by
  have ids : ∀ move ∈ Example.moves, move.input.homed Example.home move.slot.1 := by
    refine List.forall_iff_forall_mem.mp ?_
    exact ⟨fun _ => rfl, fun _ => rfl, fun _ => rfl, fun _ => rfl, fun _ => rfl, fun _ => rfl,
      fun _ => rfl, fun _ => rfl, fun _ => rfl, fun _ => rfl⟩
  obtain ⟨alone, ran, same, _⟩ := noninterference WaAutomation.Example.helpers Example.home "w"
    Example.site_homed Example.site_homed rfl ids rfl
  exact ⟨_, alone, rfl, ran, same⟩

end Tenants

end WaAutomation
