/-
**Progress: a broadcast that is queued or sending has a job.**

The status row and the queue are written one after the other: `send` saves `queued` before it
enqueues, and a run saves `sending` while its job is active. Nothing writes `failed`, and nothing
sets the status back when the enqueueing or the last attempt of a job fails.

* `underWay_exec`: which calls put a broadcast under way;
* `carried_act`: a move keeps a job for every broadcast that is under way, unless it loses the last
  one;
* `none_stuck`: in every run without such a move nothing is stuck;
* `some_stuck`: a broadcast whose session is gone stays queued when its job is used up.
-/

import WaAutomation.Broadcasts.Ownership

set_option linter.unusedSectionVars false

namespace WaAutomation

open Library Program

namespace Progress

/-- The broadcast is queued or sending. -/
def UnderWay (id : Uuid) (store : Store) : Prop :=
  ∃ row, store.broadcast id = some row ∧ row.status ∈ Ownership.underWay

/-- A job of the broadcast is waiting, delayed or active. -/
def HasJob (id : Uuid) (store : Store) : Prop :=
  ∃ job ∈ store.jobs, job.job.broadcast? = some ⟨id⟩

/-- The jobs have numbers of their own, which were given out. -/
structure Numbered (store : Store) : Prop where
  apart : (store.jobs.map QueuedJob.id).Nodup
  below : ∀ job ∈ store.jobs, job.id < store.jobIds

/-! ### What puts a broadcast under way -/

/-- The call puts the broadcast under way. -/
def Raises (id : Uuid) (input : Input) (store : Store) : Call → Prop
  | .save .broadcasts entity =>
      (∃ row, entity.writes row ∧ row.id = id ∧ row.status ∈ Ownership.underWay) ∧
        (exec (.save .broadcasts entity) input store).1 = .ok ()
  | .insertBroadcast draft _ =>
      ∃ given, draft = some given ∧ (given input).id = id ∧
        (given input).status ∈ Ownership.underWay
  | .remove _ _ => False
  | made => made.writes .broadcasts = true

section Rows

variable {id : Uuid} {store : Store}

theorem underWay_of_same {store' : Store} (same : store'.db .broadcasts = store.db .broadcasts)
    (raised : UnderWay id store') : UnderWay id store := by
  obtain ⟨row, found, status⟩ := raised
  unfold Store.broadcast at found
  rw [same] at found
  exact ⟨row, found, status⟩

theorem underWay_push {row : Broadcast}
    (raised : UnderWay id { store with db := store.db.push .broadcasts row }) :
    UnderWay id store ∨ row.id = id ∧ row.status ∈ Ownership.underWay := by
  obtain ⟨other, found, status⟩ := raised
  change (((store.db.push .broadcasts row) .broadcasts).find? fun other => other.id == id) =
    _ at found
  rw [Db.push, Db.set_same, List.find?_append, Option.or_eq_some_iff] at found
  rcases found with stored | ⟨_, last⟩
  · exact .inl ⟨other, stored, status⟩
  · have same := List.find?_some last
    obtain rfl := List.mem_singleton.mp (List.mem_of_find?_eq_some last)
    exact .inr ⟨by simpa using same, status⟩

theorem underWay_put {row : Broadcast}
    (raised : UnderWay id { store with db := store.db.put .broadcasts row }) :
    UnderWay id store ∨ row.id = id ∧ row.status ∈ Ownership.underWay := by
  obtain ⟨other, found, status⟩ := raised
  change ((store.db.put .broadcasts row) .broadcasts).find? (fun other => other.id == id) =
    _ at found
  have put : (Rows.put (Row.key .broadcasts) row (store.db .broadcasts)).find?
      (fun other => decide (Row.key .broadcasts other = (id, ""))) = _ :=
    Rows.find_put row (store.db .broadcasts) (id, "")
  simp only [Row.key, Prod.mk.injEq, and_true] at put
  rw [Db.put, Db.set_same] at found
  have here := found.symm.trans put
  split at here
  · rename_i same
    obtain ⟨_, _, rfl⟩ := Option.map_eq_some_iff.mp here.symm
    exact .inr ⟨same, status⟩
  · exact .inl ⟨other, here.symm, status⟩

/-- A row that goes puts nothing under way. -/
theorem underWay_remove {row : Broadcast}
    (raised : UnderWay id { store with db := store.db.remove .broadcasts row }) :
    UnderWay id store := by
  obtain ⟨other, found, status⟩ := raised
  change ((store.db.remove .broadcasts row) .broadcasts).find? (fun other => other.id == id) = _
    at found
  rw [Db.remove, Db.erase_other _ (by decide), Db.erase, Db.set_same, List.find?_filter] at found
  refine ⟨other, ?_, status⟩
  have hit := List.find?_some found
  simp only [Db.sameKey, Row.key, Prod.mk.injEq, and_true, beq_iff_eq, Bool.not_eq_true',
    decide_eq_false_iff_not, decide_eq_true_eq] at hit
  have different : row.id ≠ id := fun same => hit.1 (same.trans hit.2.symm)
  rw [← found]
  refine congrArg (fun test => List.find? test (store.db .broadcasts)) (funext fun candidate => ?_)
  by_cases same : candidate.id = id
  · simp [Db.sameKey, Row.key, same, different]
  · simp [same]

/-- **A broadcast is put under way by a save or by its insert.** -/
theorem underWay_exec (made : Call) (input : Input)
    (raised : UnderWay id (exec made input store).2) :
    UnderWay id store ∨ Raises id input store made := by
  obtain ⟨_, _, _, failed⟩ | performed := exec_cases made input store
  · rw [failed] at raised
    exact .inl raised
  have still (kept : made.writes .broadcasts = false) :
      UnderWay id store ∨ Raises id input store made :=
    .inl (underWay_of_same (exec_other made input store kept) raised)
  cases made with
  | save table entity =>
    cases table with
    | broadcasts =>
      rw [performed] at raised
      obtain ⟨_, failed⟩ | ⟨stored, row, _, onto, _, saved⟩ | ⟨row, _, anew, _, saved⟩ :=
        store.save_cases .broadcasts entity
      · rw [show perform input store (.save .broadcasts entity) = _ from failed] at raised
        exact .inl raised
      · rw [show perform input store (.save .broadcasts entity) = _ from saved] at raised performed
        refine (underWay_put raised).imp_right fun written =>
          ⟨⟨row, .inl ⟨stored, onto⟩, written⟩, ?_⟩
        rw [performed]
      · rw [show perform input store (.save .broadcasts entity) = _ from saved] at raised performed
        refine (underWay_push raised).imp_right fun written => ⟨⟨row, .inr anew, written⟩, ?_⟩
        rw [performed]
    | _ => exact still rfl
  | insert table draft =>
    cases table with
    | broadcasts => exact .inr rfl
    | _ => exact still rfl
  | insertBroadcast draft recipients =>
    rw [performed] at raised
    obtain same | ⟨given, db, db', is_given, inserted, all, same⟩ :=
      store.insertBroadcast_snd input recipients draft
    · rw [show (perform input store (.insertBroadcast draft recipients)).2 = _ from same] at raised
      exact .inl raised
    · rw [show (perform input store (.insertBroadcast draft recipients)).2 = _ from same] at raised
      have pushed : UnderWay id { store with db := db } :=
        underWay_of_same (Db.insertAll_other (by decide) all) raised
      rw [(Db.insert_ok inserted).2.2] at pushed
      exact (underWay_push pushed).imp_right fun written => ⟨given, is_given, written⟩
  | remove table row =>
    cases table with
    | broadcasts =>
      rw [performed] at raised
      exact .inl (underWay_remove raised)
    | _ => exact still rfl
  | update table matching change =>
    cases table with
    | broadcasts => exact .inr rfl
    | _ => exact still rfl
  | _ => exact still rfl

end Rows

/-! ### What a request that puts a broadcast under way does next -/

/-- A save that puts a broadcast under way is followed by the enqueueing of its job, and a new
broadcast is a draft. -/
def Prompt : (made : Call) → (Except Err (Resp made) → Svc Reply) → Prop
  | .save .broadcasts entity, next =>
      (∀ row, entity.writes row → row.status ∉ Ownership.underWay) ∨
        ∃ row, entity = .whole row ∧ ∀ reading, ∃ attempts delay later,
          (next (.ok ())).settle reading = .calling (.add (.broadcast ⟨row.id⟩) attempts delay)
            later
  | .insertBroadcast draft _, _ =>
      ∀ given, draft = some given → ∀ input, (given input).status = .draft
  | .remove _ _, _ => True
  | made, _ => made.writes .broadcasts = false

theorem prompt_of_calls {α : Type} {program : Svc α} {rest : α → Svc Reply}
    (reads : Reads program) :
    program.Everywhere fun made next => Prompt made fun reply => next reply >>= rest := by
  refine everywhere_mono (fun made next reads => ?_) reads
  cases made <;> first | rfl | cases reads

/-- **Requests are prompt.** -/
theorem program_prompt (h : Helpers) (request : Request) :
    (request.program h).Everywhere Prompt := by
  have calls {α : Type} {program : Svc α} {rest : α → Svc Reply} (reads : Reads program)
      (later : ∀ value, (rest value).Everywhere Prompt) : (program >>= rest).Everywhere Prompt :=
    everywhere_bind (prompt_of_calls reads) later
  have others (quiet : ∀ made, request.makes made → ∀ next, Prompt made next) :
      (request.program h).Everywhere Prompt := by
    refine everywhere_mono (fun made next holds => ?_) (request.program_calls h)
    rcases holds with reads | makes
    · cases made <;> first | rfl | cases reads
    · exact quiet made makes next
  cases request with
  | create workspaceId userId dto =>
    simp only [Request.program, BroadcastsService.create, Program.bind_assoc]
    refine calls (WorkspacesService.assertRole_reads _ _ _) fun _ =>
      calls (SessionsService.findOne_reads _ _ _) fun session =>
        calls (ContactsService.resolvePhones_reads _ _) fun contacts => ?_
    split
    · trivial
    · refine ⟨?_, fun reply => ?_⟩
      · rintro given is_given input
        cases workspaceId with
        | none => cases is_given
        | some _ =>
          cases is_given
          rfl
      · cases reply <;> trivial
  | update id workspaceId userId dto =>
    simp only [Request.program, BroadcastsService.update, Program.bind_assoc]
    refine calls (WorkspacesService.assertRole_reads _ _ _) fun _ =>
      calls (BroadcastsService.findOne_reads _ _ _) fun broadcast => ?_
    split
    · trivial
    · rename_i draft
      refine ⟨.inl fun row writes => ?_, fun reply => ?_⟩
      · rw [assign_writes writes, not_not.mp draft]
        decide
      · cases reply <;> trivial
  | remove id workspaceId userId =>
    simp only [Request.program, BroadcastsService.remove, Program.bind_assoc]
    refine calls (WorkspacesService.assertRole_reads _ _ _) fun _ =>
      calls (BroadcastsService.findOne_reads _ _ _) fun broadcast => ⟨trivial, fun reply => ?_⟩
    cases reply <;> trivial
  | send id workspaceId userId =>
    simp only [Request.program, BroadcastsService.send, Program.bind_assoc]
    refine calls (WorkspacesService.assertRole_reads _ _ _) fun _ =>
      calls (BroadcastsService.findOne_reads _ _ _) fun broadcast => ?_
    split
    · trivial
    · refine ⟨.inr ⟨_, rfl, fun reading => ⟨_, _, _, rfl⟩⟩, fun reply => ?_⟩
      cases reply with
      | error error => trivial
      | ok _ =>
        refine fun reading => ⟨rfl, fun reply => ?_⟩
        cases reply <;> trivial
  | cancel id workspaceId userId =>
    simp only [Request.program, BroadcastsService.cancel, Program.bind_assoc]
    refine calls (WorkspacesService.assertRole_reads _ _ _) fun _ =>
      calls (BroadcastsService.findOne_reads _ _ _) fun broadcast =>
        ⟨.inl fun row writes => ?_, fun reply => ?_⟩
    · rw [Entity.writes_whole writes]
      exact (show BroadcastStatus.cancelled ∉ Ownership.underWay by decide)
    · cases reply <;> trivial
  | removeSession id workspaceId userId =>
    refine others fun made makes _ => ?_
    obtain ⟨_, _, _, rfl⟩ | ⟨_, rfl⟩ := makes
    · rfl
    · trivial
  | elsewhere change =>
    refine others fun made makes _ => ?_
    obtain ⟨_, rfl⟩ := makes
    rfl
  | _ => exact others fun made makes => makes.elim

/-! ### The queue -/

section Queue

variable {store : Store} {made : Call} {input : Input}

theorem exec_add (job : Job) (attempts : Nat) (delay : Int) (input : Input) (store : Store) :
    (exec (.add job attempts delay) input store).2 =
      if input.fault.isSome then store else store.enqueue job attempts delay := by
  unfold exec
  cases input.fault <;> rfl

/-- No call takes a job from the queue. -/
theorem mem_exec {job : QueuedJob} (member : job ∈ store.jobs) :
    job ∈ (exec made input store).2.jobs := by
  by_cases enqueues : made.enqueues = true
  · cases made with
    | add added attempts delay =>
      rw [exec_add]
      split
      · exact member
      · exact List.mem_append_left _ member
    | _ => cases enqueues
  · rwa [(exec_queue made input store (Bool.eq_false_iff.mpr enqueues)).1]

theorem numbered_exec (numbered : Numbered store) : Numbered (exec made input store).2 := by
  by_cases enqueues : made.enqueues = true
  · cases made with
    | add added attempts delay =>
      rw [exec_add]
      split
      · exact numbered
      · refine ⟨?_, fun job member => ?_⟩
        · show ((store.jobs ++ [_]).map QueuedJob.id).Nodup
          rw [List.map_append]
          refine List.Nodup.append numbered.apart (List.nodup_singleton _) fun number old new => ?_
          obtain ⟨job, member, rfl⟩ := List.mem_map.mp old
          rw [List.map_singleton, List.mem_singleton] at new
          exact absurd (numbered.below job member) (by rw [new]; exact Nat.lt_irrefl _)
        · show job.id < store.jobIds + 1
          rcases List.mem_append.mp member with old | new
          · exact Nat.lt_succ_of_lt (numbered.below job old)
          · rw [List.mem_singleton.mp new]
            exact Nat.lt_succ_self _
    | _ => cases enqueues
  · obtain ⟨jobs, jobIds⟩ := exec_queue made input store (Bool.eq_false_iff.mpr enqueues)
    exact ⟨by rw [jobs]; exact numbered.apart, by rw [jobs, jobIds]; exact numbered.below⟩

theorem mem_settle {jobId : Nat} {returned : Bool} {job : QueuedJob} (member : job ∈ store.jobs)
    (stays : job.id ≠ jobId) : job ∈ (store.settleJob jobId returned).jobs :=
  List.mem_filterMap.mpr ⟨job, member, if_neg stays⟩

theorem numbered_settle {jobId : Nat} {returned : Bool} (numbered : Numbered store) :
    Numbered (store.settleJob jobId returned) := by
  refine ⟨?_, fun job member => ?_⟩
  · have fewer := settleJob_ids store jobId returned fun _ => true
    rw [List.filter_true, List.filter_true] at fewer
    exact numbered.apart.sublist fewer
  · obtain ⟨old, stored, stays⟩ := List.mem_filterMap.mp member
    rw [(settle_same stays).1]
    exact numbered.below old stored

end Queue

/-! ### One move -/

/-- The broadcast whose job a move fails to enqueue. -/
def drops (pool : Pool) : Move → Option Uuid
  | .resume (.call number) input =>
      match pool.thread (.call number) with
      | some ⟨_, .add (.broadcast data) _ _, _⟩ =>
          if input.fault.isSome then some data.broadcastId else none
      | _ => none
  | _ => none

/-- The attempt a move ends with an exception. -/
def throws (pool : Pool) : Move → Option Attempt
  | .resume .worker input =>
      match pool.thread .worker with
      | none => none
      | some thread =>
          match (thread.next (exec thread.request input pool.shared).1).settle input with
          | .finished (.error _) => some thread.label
          | _ => none
  | _ => none

/-- The move does not lose the last job of a broadcast: where an enqueueing fails the broadcast has
another job, or is not under way any more; where an attempt throws it is not the last one of the
job, or the broadcast has another. -/
def carries (pool : Pool) (move : Move) : Bool :=
  (drops pool move).all (fun id =>
    pool.shared.jobs.any (fun job => job.job.broadcast? == some ⟨id⟩) ||
      (pool.shared.broadcast id).all fun row => decide (row.status ∉ Ownership.underWay)) &&
  (throws pool move).all fun attempt =>
    pool.shared.jobs.all (fun job => job.id != attempt.jobId || job.retry.isSome) ||
      pool.shared.jobs.any fun job =>
        job.id != attempt.jobId && job.job.broadcast? == some attempt.data

/-- The request in a slot is about to enqueue the broadcast. -/
def Enqueues (id : Uuid) (pool : Pool) (number : Nat) : Prop :=
  ∃ thread attempts delay, pool.thread (.call number) = some thread ∧
    thread.request = .add (.broadcast ⟨id⟩) attempts delay

/-- **The invariant**: a broadcast that is under way has a job, or a request is about to enqueue it;
and the job of the run in flight is in the queue. -/
structure Carried (pool : Pool) : Prop where
  numbered : Numbered pool.shared
  running : ∀ thread, pool.thread .worker = some thread →
    ∃ job ∈ pool.shared.jobs, thread.label.of job = true
  carried : ∀ id, UnderWay id pool.shared →
    HasJob id pool.shared ∨ ∃ number, Enqueues id pool number

/-- A request in another slot goes on waiting to enqueue. -/
theorem enqueues_waiting {h : Helpers} {pool pool' : Pool} {move : Move} {id : Uuid} {number : Nat}
    (moved : (system h).act pool move = some pool') (different : .call number ≠ move.slot)
    (enqueues : Enqueues id pool number) : Enqueues id pool' number := by
  obtain ⟨thread, attempts, delay, busy, request⟩ := enqueues
  exact ⟨thread, attempts, delay, (act_waiting moved different).trans busy, request⟩

section Act

variable {h : Helpers} {store : Store} {moves : List Move} {pool pool' : Pool}

/-- A request that puts a broadcast under way is about to enqueue it. -/
theorem raises_enqueues {number : Nat} {input : Input}
    (moved : (system h).act pool (.resume (.call number) input) = some pool')
    {thread : Machine.Thread Err Input Call Resp Request Reply}
    (busy : pool.thread (.call number) = some thread) (prompt : Prompt thread.request thread.next)
    {id : Uuid} (raises : Raises id input pool.shared thread.request) :
    Enqueues id pool' number := by
  have resumed := (system h).act_resume moved busy
  obtain ⟨label, made, next⟩ := thread
  have unwritten (kept : made.writes .broadcasts = false)
      (written : made.writes .broadcasts = true) :
      Enqueues id pool' number := by
    cases kept.symm.trans written
  cases made with
  | save table entity =>
    cases table with
    | broadcasts =>
      obtain ⟨⟨row, writes, rfl, status⟩, ok⟩ := raises
      rcases prompt with never | ⟨whole, rfl, stops⟩
      · exact absurd status (never row writes)
      · obtain rfl := Entity.writes_whole writes
        obtain ⟨attempts, delay, later, calling⟩ := stops input
        have outcome : (system h).exec (.save .broadcasts (.whole row)) input pool.shared =
            (.ok (), (exec (.save .broadcasts (.whole row)) input pool.shared).2) := Prod.ext ok rfl
        rw [outcome, calling] at resumed
        obtain ⟨_, wrong, _⟩ | ⟨_, _, same, waits⟩ := resumed
        · cases wrong
        · cases same
          exact ⟨_, attempts, delay, waits, rfl⟩
    | _ => exact unwritten prompt raises
  | insertBroadcast draft recipients =>
    obtain ⟨given, is_given, _, status⟩ := raises
    rw [prompt given is_given input] at status
    exact absurd status (by decide)
  | remove table row => exact raises.elim
  | _ => exact unwritten prompt raises

/-- A request that enqueues leaves a job, unless it loses the last one. -/
theorem enqueued_hasJob {number : Nat} {input : Input} {id : Uuid} (under : UnderWay id pool.shared)
    (enqueues : Enqueues id pool number)
    (keeps : carries pool (.resume (.call number) input) = true)
    (moved : (system h).act pool (.resume (.call number) input) = some pool') :
    HasJob id pool'.shared := by
  obtain ⟨⟨label, made, next⟩, attempts, delay, busy, rfl⟩ := enqueues
  rw [act_request moved busy, exec_add]
  by_cases faulty : input.fault.isSome = true
  · rw [if_pos faulty]
    simp only [carries, drops, busy, faulty, if_true, Option.all_some, Bool.and_eq_true,
      Bool.or_eq_true, List.any_eq_true, beq_iff_eq] at keeps
    rcases keeps.1 with has_job | settled
    · exact has_job
    · obtain ⟨row, found, status⟩ := under
      rw [found] at settled
      simp [status] at settled
  · rw [if_neg faulty]
    exact ⟨_, List.mem_append_right _ (List.mem_singleton.mpr rfl), rfl⟩

/-- A move of a request keeps the invariant. -/
theorem carried_request (reached : (system h).run (idle store) moves = some pool)
    (carried : Carried pool) {number : Nat} {input : Input}
    (keeps : carries pool (.resume (.call number) input) = true)
    (moved : (system h).act pool (.resume (.call number) input) = some pool')
    {thread : Machine.Thread Err Input Call Resp Request Reply}
    (busy : pool.thread (.call number) = some thread) : Carried pool' := by
  have shared := act_request moved busy
  have worker : pool'.thread .worker = pool.thread .worker :=
    act_waiting moved fun wrong => by cases wrong
  refine ⟨?_, fun run found => ?_, fun id raised => ?_⟩
  · rw [shared]
    exact numbered_exec carried.numbered
  · obtain ⟨job, member, its⟩ := carried.running run (worker.symm.trans found)
    rw [shared]
    exact ⟨job, mem_exec member, its⟩
  · have prompt := (Ownership.call_run (fun _ _ => Prompt)
      (fun _ request => program_prompt h request) reached busy).1
    rw [shared] at raised
    rcases underWay_exec thread.request input raised with before | raises
    · rcases carried.carried id before with ⟨job, member, its⟩ | ⟨other, enqueues⟩
      · rw [shared]
        exact .inl ⟨job, mem_exec member, its⟩
      · by_cases same : other = number
        · subst same
          exact .inl (enqueued_hasJob before enqueues keeps moved)
        · exact .inr ⟨other, enqueues_waiting moved (fun equal => same (Slot.call.inj equal))
            enqueues⟩
    · exact .inr ⟨number, raises_enqueues moved busy prompt raises⟩

/-- A run puts no broadcast but its own under way, and enqueues nothing. -/
theorem raises_own {id other : Uuid} {made : Call} {input : Input} {store : Store}
    (own : Ownership.Own id made) (raises : Raises other input store made) : other = id := by
  cases made with
  | save table entity =>
    cases table with
    | broadcasts =>
      obtain ⟨row, rfl, same⟩ := own
      obtain ⟨⟨written, writes, is_other, _⟩, _⟩ := raises
      rw [Entity.writes_whole writes] at is_other
      exact is_other.symm.trans same
    | recipients => cases raises
    | _ => cases own.1.symm.trans raises
  | insertBroadcast draft recipients => cases own.1
  | remove table row => exact raises.elim
  | openwa call => cases raises
  | _ => cases own.1.symm.trans raises

theorem own_quiet {id : Uuid} {made : Call} (own : Ownership.Own id made) :
    made.enqueues = false := by
  cases made with
  | add job attempts delay => cases own.2.2
  | _ => rfl

/-- An attempt that throws leaves a job of its broadcast, unless it loses the last one. -/
theorem thrown_hasJob {input : Input} (keeps : carries pool (.resume .worker input) = true)
    {attempt : Attempt} (thrown : throws pool (.resume .worker input) = some attempt)
    (running : ∃ job ∈ pool.shared.jobs, attempt.of job = true) :
    HasJob attempt.data.broadcastId (pool.shared.settleJob attempt.jobId false) := by
  obtain ⟨job, member, its⟩ := running
  simp only [Attempt.of, Bool.and_eq_true, beq_iff_eq] at its
  simp only [carries, thrown, Option.all_some, Bool.and_eq_true, Bool.or_eq_true, List.all_eq_true,
    List.any_eq_true, bne_iff_ne, beq_iff_eq] at keeps
  rcases keeps.2 with more | ⟨other, stored, different, same⟩
  · obtain ⟨again, retried⟩ := Option.isSome_iff_exists.mp
      ((more job member).resolve_left fun different => different its.1)
    have stays : job.settle attempt.jobId false = some again := by
      unfold QueuedJob.settle
      rw [if_pos its.1]
      exact retried
    exact ⟨again, List.mem_filterMap.mpr ⟨job, member, stays⟩, by rw [(settle_same stays).2, its.2]⟩
  · exact ⟨other, mem_settle stored different, same⟩

/-- So does the move that ends it. -/
theorem thrown_act (reached : (system h).run (idle store) moves = some pool)
    (carried : Carried pool) {input : Input} (keeps : carries pool (.resume .worker input) = true)
    (moved : (system h).act pool (.resume .worker input) = some pool') {attempt : Attempt}
    (thrown : throws pool (.resume .worker input) = some attempt) :
    HasJob attempt.data.broadcastId pool'.shared := by
  have ended := thrown
  simp only [throws] at ended
  split at ended
  · cases ended
  rename_i thread busy
  split at ended
  · rename_i error stop
    cases ended
    have own := ((system h).secure_resume input (Ownership.touches_run reached) busy trivial).1
    obtain ⟨job, member, its⟩ := thrown_hasJob keeps thrown (carried.running thread busy)
    refine ⟨job, ?_, its⟩
    simp only [Machine.act, busy, Option.some.injEq] at moved
    rw [show ((thread.next ((system h).exec thread.request input pool.shared).1).settle input) = _
      from stop] at moved
    subst moved
    show job ∈ (exec thread.request input pool.shared).2.jobs.filterMap _
    rwa [(exec_queue thread.request input pool.shared (own_quiet own)).1]
  · cases ended

/-- A job of another broadcast stays when an attempt ends. -/
theorem other_hasJob {id : Uuid} {attempt : Attempt} {store : Store} (numbered : Numbered store)
    (running : ∃ job ∈ store.jobs, attempt.of job = true) (other : id ≠ attempt.data.broadcastId)
    (returned : Bool) (has_job : HasJob id store) :
      HasJob id (store.settleJob attempt.jobId returned) := by
  obtain ⟨job, member, same⟩ := has_job
  obtain ⟨run, stored, its⟩ := running
  simp only [Attempt.of, Bool.and_eq_true, beq_iff_eq] at its
  refine ⟨job, mem_settle member fun number => other ?_, same⟩
  obtain rfl := List.inj_on_of_nodup_map numbered.apart member stored (number.trans its.1.symm)
  exact congrArg BroadcastJob.broadcastId (Option.some.inj (same.symm.trans its.2))

/-- A move of a run keeps the invariant. -/
theorem carried_worker (reached : (system h).run (idle store) moves = some pool)
    (carried : Carried pool) {input : Input} (keeps : carries pool (.resume .worker input) = true)
    (moved : (system h).act pool (.resume .worker input) = some pool')
    {thread : Machine.Thread Err Input Call Resp Attempt RunResult}
    (busy : pool.thread .worker = some thread) : Carried pool' := by
  obtain ⟨own, ends⟩ := (system h).secure_resume input (Ownership.touches_run reached) busy trivial
  have running := carried.running thread busy
  have waits {id : Uuid} {number : Nat} (enqueues : Enqueues id pool number) :
      Enqueues id pool' number :=
    enqueues_waiting moved (fun wrong => by cases wrong) enqueues
  have before {id : Uuid} (raised : UnderWay id (exec thread.request input pool.shared).2) :
      id = thread.label.data.broadcastId ∨ HasJob id pool.shared ∨
        ∃ number, Enqueues id pool number := by
    rcases underWay_exec thread.request input raised with under | raises
    · exact .inr (carried.carried id under)
    · exact .inl (raises_own own raises)
  have kept : Numbered (exec thread.request input pool.shared).2 := numbered_exec carried.numbered
  have still : ∃ job ∈ (exec thread.request input pool.shared).2.jobs,
      thread.label.of job = true := by
    obtain ⟨job, member, its⟩ := running
    exact ⟨job, mem_exec member, its⟩
  have lasts {attempt : Attempt} (thrown : throws pool (.resume .worker input) = some attempt) :
      HasJob attempt.data.broadcastId pool'.shared := thrown_act reached carried keeps moved thrown
  simp only [Machine.act, busy, Option.some.injEq] at moved
  cases stop : (thread.next (exec thread.request input pool.shared).1).settle input with
  | calling request next =>
    rw [show ((thread.next ((system h).exec thread.request input pool.shared).1).settle input) = _
      from stop] at moved
    subst moved
    refine ⟨kept, fun run found => ?_, fun id raised => ?_⟩
    · rw [Machine.place_calling_thread] at found
      cases found
      exact still
    · rcases before raised with rfl | ⟨job, member, its⟩ | ⟨number, enqueues⟩
      · obtain ⟨job, member, its⟩ := still
        simp only [Attempt.of, Bool.and_eq_true, beq_iff_eq] at its
        exact .inl ⟨job, member, its.2⟩
      · exact .inl ⟨job, mem_exec member, its⟩
      · exact .inr ⟨number, waits enqueues⟩
  | finished result =>
    have settled := ends result stop
    rw [show ((thread.next ((system h).exec thread.request input pool.shared).1).settle input) = _
      from stop] at moved
    subst moved
    refine ⟨numbered_settle kept, fun run found => ?_, fun id raised => ?_⟩
    · rw [Machine.place_finished_thread] at found
      cases found
    · have raised : UnderWay id (exec thread.request input pool.shared).2 := raised
      by_cases own_id : id = thread.label.data.broadcastId
      · cases result with
        | ok value =>
          obtain ⟨row, found, status⟩ := raised
          subst own_id
          exact absurd status (settled value rfl row found)
        | error error =>
          have thrown : throws pool (.resume .worker input) = some thread.label := by
            simp only [throws, busy, stop]
          subst own_id
          exact .inl (lasts thrown)
      · rcases before raised with same | ⟨job, member, its⟩ | ⟨number, enqueues⟩
        · exact absurd same own_id
        · exact .inl (other_hasJob kept still own_id _ ⟨job, mem_exec member, its⟩)
        · exact .inr ⟨number, waits enqueues⟩

/-- A start keeps the invariant. -/
theorem carried_start (carried : Carried pool) {slot : Slot} {label : slot.Label} {input : Input}
    (moved : (system h).act pool (.start slot label input) = some pool') : Carried pool' := by
  have waits {id : Uuid} {number : Nat} (different : Slot.call number ≠ slot)
      (enqueues : Enqueues id pool number) : Enqueues id pool' number :=
    enqueues_waiting moved different enqueues
  obtain ⟨_, _, _, same, free, admitted, placed⟩ | ⟨_, _, _, wrong, _⟩ := (system h).act_cases moved
  · cases same
    cases slot with
    | worker =>
      -- A run stops at its first lookup.
      have shared : pool'.shared = pool.shared := by
        rw [placed]
        rfl
      refine ⟨by rw [shared]; exact carried.numbered, fun run found => ?_, fun id raised => ?_⟩
      · rw [placed, show ((system h).program .worker label).settle input = .calling _ _ from rfl,
          Machine.place_calling_thread] at found
        cases found
        rw [shared]
        exact List.any_eq_true.mp admitted
      · rw [shared] at raised ⊢
        exact (carried.carried id raised).imp_right fun ⟨number, enqueues⟩ =>
          ⟨number, waits (fun wrong => by cases wrong) enqueues⟩
    | call number =>
      have shared : pool'.shared = pool.shared := by
        rw [placed]
        cases ((system h).program (.call number) label).settle input <;> rfl
      have worker : pool'.thread .worker = pool.thread .worker :=
        act_waiting moved fun wrong => by cases wrong
      refine ⟨by rw [shared]; exact carried.numbered, ?_, fun id raised => ?_⟩
      · rw [shared, worker]
        exact carried.running
      · rw [shared] at raised ⊢
        refine (carried.carried id raised).imp_right fun ⟨other, enqueues⟩ =>
          ⟨other, waits ?_ enqueues⟩
        rintro ⟨⟩
        obtain ⟨_, _, _, busy, _⟩ := enqueues
        cases free.symm.trans busy
  · cases wrong

/-- **The step of the invariant.** -/
theorem carried_act {move : Move} (reached : (system h).run (idle store) moves = some pool)
    (carried : Carried pool) (keeps : carries pool move = true)
    (moved : (system h).act pool move = some pool') : Carried pool' := by
  cases move with
  | resume slot input =>
    obtain ⟨_, _, _, wrong, _⟩ | ⟨_, _, thread, same, busy, _⟩ := (system h).act_cases moved
    · cases wrong
    cases same
    cases slot with
    | worker => exact carried_worker reached carried keeps moved busy
    | call number => exact carried_request reached carried keeps moved busy
  | start slot label input => exact carried_start carried moved

/-- Every pool of a run that does not lose the last job of a broadcast satisfies the invariant. -/
theorem carried_run (numbered : Numbered store)
    (carried : ∀ id, UnderWay id store → HasJob id store)
    (meets : (system h).Meets (fun pool move => carries pool move = true) (idle store) moves)
    (reached : (system h).run (idle store) moves = some pool) : Carried pool := by
  have begins : Carried (idle store) :=
    ⟨numbered, (fun _ busy => by cases busy), fun id under => .inl (carried id under)⟩
  exact (system h).run_reached begins
    (fun _ _ _ _ reached carried keeps moved => carried_act reached carried keeps moved)
      meets reached

end Act

/-- Nothing is stuck: with no service call in progress, a broadcast that is queued or sending has a
job. -/
def Unstuck (pool : Pool) : Prop :=
  (∀ number, pool.thread (.call number) = none) →
    ∀ id, UnderWay id pool.shared → HasJob id pool.shared

/-- A broadcast whose last attempt of its only job fails in the move is then `failed`. -/
def Concluded (h : Helpers) (pool : Pool) (move : Move) : Prop :=
  ∀ pool' attempt, (system h).act pool move = some pool' → throws pool move = some attempt →
    ¬HasJob attempt.data.broadcastId pool'.shared →
      ∀ row, pool'.shared.broadcast attempt.data.broadcastId = some row → row.status = .failed

/-- In every run in which no move loses the last job of a broadcast that is under way nothing is
stuck. -/
theorem none_stuck (h : Helpers) (store : Store) (numbered : Numbered store)
    (carried : ∀ id, UnderWay id store → HasJob id store) (moves : List Move) (pool : Pool)
    (reached : (system h).run (idle store) moves = some pool)
    (meets : (system h).Meets (fun pool move => carries pool move = true) (idle store) moves) :
    Unstuck pool ∧ ∀ move, carries pool move = true → Concluded h pool move := by
  have holds := carried_run numbered carried meets reached
  refine ⟨fun at_rest id under => ?_, fun move keeps pool' attempt moved thrown lost => ?_⟩
  · rcases holds.carried id under with has_job | ⟨number, _, _, _, busy, _⟩
    · exact has_job
    · cases (at_rest number).symm.trans busy
  · cases move with
    | start slot label input => cases thrown
    | resume slot input =>
      cases slot with
      | worker => exact absurd (thrown_act reached holds keeps moved thrown) lost
      | call number => cases thrown

/-! ### Two runs of the small workspace -/

theorem example_numbered : Numbered Example.store :=
  ⟨List.nodup_nil, fun _ member => by cases member⟩

theorem example_carried (id : Uuid) (under : UnderWay id Example.store) :
    HasJob id Example.store := by
  obtain ⟨row, found, status⟩ := under
  obtain rfl := List.mem_singleton.mp (List.mem_of_find?_eq_some found)
  exact absurd status (by decide)

/-- A broadcast that is sent. -/
theorem none_stuck_example :
    HasJob "b" (Example.reach Example.store Example.send rfl).shared := by
  refine (none_stuck Example.helpers Example.store example_numbered example_carried Example.send _
    (Example.reached rfl) ((system Example.helpers).meets_of_checks rfl)).1 (fun number => ?_) "b"
    ⟨_, rfl, by decide⟩
  exact Example.at_rest (Example.reached rfl) (by decide) rfl (.call number)

/-- A broadcast that is sent after its session was removed, and the three attempts of its job. -/
def abandoned : List Move :=
  Example.alone (.removeSession "s" (some "w") "u") 6 ++ Example.send ++
    [Example.begin_ 0] ++ Example.works 2 ++ [Example.begin_ 0] ++ Example.works 2 ++
    [Example.begin_ 0] ++ Example.works 2

/-- The broadcast stays queued. -/
theorem some_stuck :
    ¬∀ (h : Helpers) (store : Store), Numbered store →
      (∀ id, UnderWay id store → HasJob id store) → ∀ (moves : List Move) (pool : Pool),
      (system h).run (idle store) moves = some pool →
      Unstuck pool ∧ ∀ move, Concluded h pool move := by
  intro claim
  have unstuck := (claim Example.helpers Example.store example_numbered example_carried abandoned
    (Example.reach Example.store abandoned rfl) (Example.reached rfl)).1
  obtain ⟨job, member, _⟩ := unstuck
    (fun number => Example.at_rest (Example.reached rfl) (by decide) rfl (.call number)) "b"
    ⟨_, rfl, by decide⟩
  cases member

end Progress

end WaAutomation
