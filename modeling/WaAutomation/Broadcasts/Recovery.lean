/-
**Recovery: what a run leaves when its own writes fail.**

The worker alone, with any of its database calls failing at any moment and any number of attempts.
The ledger of `Delivery` and the counters of `Counters` stay truthful as long as two kinds of write
go through: the row of a recipient whose message was accepted, and the row of the broadcast while
the run's copy of it is ahead (`spared`).

* `truthful_recovery` puts the two invariants together;
* `untruthful_recovery` is a run in which the first kind of write fails.
-/

import WaAutomation.Broadcasts.Counters

set_option linter.unusedSectionVars false

namespace WaAutomation

open Library

namespace Recovery

/-- The write of an accepted recipient, and the write of counters the stored row does not have yet,
do not fail. -/
def spared (pool : Pool) : Move → Bool
  | .resume .worker input =>
      match pool.thread .worker with
      | some ⟨_, .save .recipients entity, _⟩ =>
          entity.row.status != .sent ||
            (exec (.save .recipients entity) input pool.shared).1.isOk
      | some ⟨_, .save .broadcasts entity, _⟩ =>
          (pool.shared.broadcasts.all fun stored => stored.id != entity.row.id ||
            stored.sentCount == entity.row.sentCount &&
              stored.failedCount == entity.row.failedCount) ||
            (exec (.save .broadcasts entity) input pool.shared).1.isOk
      | _ => true
  | _ => true

/-- Only the writes of recipients and broadcasts fail. -/
def savesFail (pool : Pool) : Move → Bool
  | .resume .worker input =>
      match pool.thread .worker with
      | some ⟨_, .save .recipients _, _⟩ => true
      | some ⟨_, .save .broadcasts _, _⟩ => true
      | _ => databaseHolds pool (.resume .worker input)
  | _ => true

theorem keeps_of_spared {pool : Pool} {move : Move} (worker : move.slot = .worker)
    (holds : spared pool move = true) :
    Delivery.Keeps False pool move ∧ Counters.Keeps pool move := by
  cases move with
  | start slot label input =>
    cases worker
    exact ⟨trivial, trivial⟩
  | resume slot input =>
    cases worker
    simp only [spared] at holds
    constructor
    · intro thread busy
      simp only [busy] at holds
      obtain ⟨label, request, next⟩ := thread
      cases request with
      | save table entity =>
        cases table with
        | recipients =>
          rintro (wrong | accepted)
          · exact wrong.elim
          · simp only [accepted, bne_self_eq_false, Bool.false_or] at holds
            exact isOk_reply holds
        | _ => trivial
      | _ => trivial
    · intro thread busy
      simp only [busy] at holds
      obtain ⟨label, request, next⟩ := thread
      cases request with
      | save table entity =>
        cases table with
        | broadcasts =>
          rintro ⟨stored, member, same, behind⟩
          simp only [Bool.or_eq_true, List.all_eq_true, bne_iff_ne, ne_eq, Bool.and_eq_true,
            beq_iff_eq] at holds
          rcases holds with level | answered
          · rcases level stored member with different | ⟨sent, failed⟩
            · exact absurd same different
            · exact absurd behind (not_or.mpr ⟨not_not.mpr sent, not_not.mpr failed⟩)
          · exact isOk_reply answered
        | _ => trivial
      | _ => trivial

/-- The conditions of both invariants, along a run of the worker alone. -/
theorem meets_of_spared {h : Helpers} {store : Store} {moves : List Move}
    (worker : ∀ move ∈ moves, move.slot = .worker)
    (meets : (system h).Meets (fun pool move => spared pool move = true) (idle store) moves) :
    (system h).Meets (Delivery.Keeps False) (idle store) moves ∧
      (system h).Meets Counters.Keeps (idle store) moves := by
  have alone : (system h).Meets (fun _ move => move.slot = .worker) (idle store) moves :=
    (system h).meets_of_forall (fun move member _ => worker move member) (idle store)
  have both := (system h).meets_and alone meets
  exact ⟨(system h).meets_mono (fun _ _ holds => (keeps_of_spared holds.1 holds.2).1) both,
    (system h).meets_mono (fun _ _ holds => (keeps_of_spared holds.1 holds.2).2) both⟩

/-- What is demanded of a move: nothing accepted is recorded as failed, nothing was sent after an
accepted message, and where a run returned `done`, the counters count. -/
structure Truthful (h : Helpers) (pool : Pool) (move : Move) (pool' : Pool) : Prop where
  failed : ∀ recipient ∈ pool'.shared.recipients, recipient.status = .failed →
    true ∉ Delivery.verdicts pool'.shared.sends recipient.id
  once : ∀ id, true ∉ (Delivery.verdicts pool'.shared.sends id).dropLast
  counters : ∀ attempt input sent failed, move = .resume .worker input →
    (system h).Ends pool .worker attempt input (.ok (.done sent failed)) →
      ∀ row ∈ pool'.shared.broadcasts, Counters.Exact pool'.shared.recipients row

/-- However calls fail and whatever OpenWA answers, over any number of attempts: as long as the two
kinds of write go through, recovery is truthful. -/
theorem truthful_recovery (h : Helpers) (store : Store) (agree : Counters.Agree none store)
    (fresh : store.sends = []) (moves : List Move) (pool : Pool)
    (reached : (system h).run (idle store) moves = some pool)
    (worker : ∀ move ∈ moves, move.slot = .worker)
    (meets : (system h).Meets (fun pool move => spared pool move = true) (idle store) moves)
    (move : Move) (pool' : Pool) (moved : (system h).act pool move = some pool')
    (is_worker : move.slot = .worker) (holds : spared pool move = true) :
    Truthful h pool move pool' := by
  obtain ⟨delivers, counts⟩ := meets_of_spared worker meets
  obtain ⟨keeps_delivery, keeps_counters⟩ := keeps_of_spared is_worker holds
  have delivering := Delivery.delivering_run agree.keys fresh delivers reached
  have counting := Counters.counting_run agree counts reached
  have sound := (Delivery.delivering_act delivering keeps_delivery moved).sound
  refine ⟨sound.failed, fun id => (sound.served id).1, ?_⟩
  rintro attempt input sent failed rfl ⟨thread, busy, rfl, finished⟩ row member
  have agree' := (Counters.counting_act counting keeps_counters moved).agree
  obtain ⟨_, _, free⟩ | ⟨_, _, calling, _⟩ := (system h).act_resume moved busy
  · refine agree'.counts row member fun wrong => ?_
    simp only [Counters.focus, free, Option.map_none] at wrong
    cases wrong
  · cases finished.symm.trans calling

/-- The small workspace with a job in the queue. -/
def queued : Store :=
  { Example.store with jobs := [⟨0, .broadcast ⟨"b"⟩, defaultAttempts, 0, 0⟩], jobIds := 1 }

theorem queued_agree : Counters.Agree none queued :=
  Counters.agree_of_same (show queued.recipients = Example.store.recipients from rfl) rfl
    Counters.example_agree

/-- A first attempt that fails when it saves the broadcast, and a second one up to its last call. -/
def secondAttempt : List Move :=
  Example.begin_ 0 :: Example.works 3 ++ [.resume .worker Example.faulty] ++
    Example.begin_ 0 :: Example.works 19

theorem truthful_recovery_example :
    ∃ pool pool' : Pool,
      (system Example.helpers).run (idle queued) secondAttempt = some pool ∧
        (system Example.helpers).act pool (.resume .worker Example.fine) = some pool' ∧
        Truthful Example.helpers pool (.resume .worker Example.fine) pool' := by
  obtain ⟨pool, reached⟩ := Option.isSome_iff_exists.mp (show ((system Example.helpers).run
    (idle queued) secondAttempt).isSome from rfl)
  obtain ⟨pool', moved⟩ := Option.isSome_iff_exists.mp (Example.at_end reached (fun pool =>
    ((system Example.helpers).act pool (.resume .worker Example.fine)).isSome) rfl)
  exact ⟨pool, pool', reached, moved, truthful_recovery Example.helpers queued queued_agree rfl
    secondAttempt pool reached (by decide) ((system Example.helpers).meets_of_checks rfl) _ pool'
    moved rfl (Example.at_end reached (fun pool => spared pool (.resume .worker Example.fine)) rfl)⟩

/-- The first message is accepted, and the write of its recipient fails. -/
def lostWrite : List Move :=
  Example.begin_ 0 :: Example.works 7 ++ [.resume .worker Example.faulty]

/-- Then the handler records the recipient as failed. -/
theorem untruthful_recovery :
    ¬∀ (h : Helpers) (store : Store), Counters.Agree none store → store.sends = [] →
      ∀ (moves : List Move) (pool : Pool), (system h).run (idle store) moves = some pool →
      (∀ move ∈ moves, move.slot = .worker) →
      (system h).Meets (fun pool move => savesFail pool move = true) (idle store) moves →
      ∀ (move : Move) (pool' : Pool), (system h).act pool move = some pool' →
        move.slot = .worker → savesFail pool move = true → Truthful h pool move pool' := by
  intro claim
  obtain ⟨pool, reached⟩ := Option.isSome_iff_exists.mp (show ((system Example.helpers).run
    (idle queued) lostWrite).isSome from rfl)
  obtain ⟨pool', moved⟩ := Option.isSome_iff_exists.mp (Example.at_end reached (fun pool =>
    ((system Example.helpers).act pool (.resume .worker Example.fine)).isSome) rfl)
  have truthful := claim Example.helpers queued queued_agree rfl lostWrite pool reached (by decide)
    ((system Example.helpers).meets_of_checks rfl) (.resume .worker Example.fine) pool' moved rfl
    (Example.at_end reached (fun pool => savesFail pool (.resume .worker Example.fine)) rfl)
  have recorded := Example.at_end reached (fun pool =>
    ((system Example.helpers).act pool (.resume .worker Example.fine)).any fun pool' =>
      pool'.shared.recipients.any fun recipient => recipient.status == .failed &&
        (Delivery.verdicts pool'.shared.sends recipient.id).contains true) rfl
  simp only [moved, Option.any_some, List.any_eq_true, Bool.and_eq_true, beq_iff_eq,
    List.contains_iff_mem] at recorded
  obtain ⟨recipient, member, is_failed, accepted⟩ := recorded
  exact truthful.failed recipient member is_failed accepted

end Recovery

end WaAutomation
