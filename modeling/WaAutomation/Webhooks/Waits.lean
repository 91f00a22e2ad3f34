/-
**The waits between the attempts of a webhook job.**

The comment of the processor announces the wait before each attempt by the number of the attempt.
The queue calls `backoffStrategy` with the number of attempts that have failed, which is one less
than the number of the attempt that waits; the strategy reads it as that number.

* `timeline_wait` is the wait between two attempts in a row;
* `waits_documented_iff` says which waits are as announced, and for which jobs all of them are.
-/

import WaAutomation.Webhooks.Delivery

set_option linter.unusedSectionVars false

namespace WaAutomation.Waits

open Library

/-- The wait before an attempt as it is announced: the first one is immediate, the second one comes
after 30 s, the others after 5 minutes. -/
def documented (attempt : Nat) : Time :=
  if attempt ≤ 1 then 0 else if attempt = 2 then 30000 else 300000

/-- The attempts of a job that starts at some time follow the announced schedule. -/
structure Documented (start : Time) (course : List DeliveryTime) : Prop where
  first : ∀ here, course[0]? = some here → here.start = start + documented 1
  later : ∀ attempt ≥ 2, ∀ before here, course[attempt - 2]? = some before →
    course[attempt - 1]? = some here → here.start = before.finish + documented attempt

section Timeline

variable {took : Nat → Time}

theorem timeline_length {attempts : List (DeliveryAttempt × Nat)} : ∀ {start : Time},
    (timeline took start attempts).length = attempts.length := by
  induction attempts with
  | nil => exact fun {_} => rfl
  | cons attempt rest ih => exact fun {_} => congrArg (· + 1) ih

/-- The attempts of the timeline are those of the job. -/
theorem timeline_earlier {attempts : List (DeliveryAttempt × Nat)} : ∀ {start : Time},
    (timeline took start attempts).map DeliveryTime.earlier = attempts.map Prod.snd := by
  induction attempts with
  | nil => exact fun {_} => rfl
  | cons attempt rest ih =>
    intro start
    rw [timeline, List.map_cons, List.map_cons, ih]

/-- The next attempt starts after the wait for the attempts that have failed. -/
theorem timeline_wait {attempts : List (DeliveryAttempt × Nat)} :
    ∀ {start : Time} {index : Nat} {before here : DeliveryTime},
      (timeline took start attempts)[index]? = some before →
      (timeline took start attempts)[index + 1]? = some here →
      here.start = before.finish + WebhookProcessor.backoffStrategy (before.earlier + 1) := by
  induction attempts with
  | nil => exact fun earlier _ => by cases earlier
  | cons attempt rest ih =>
    intro start index before here first second
    cases index with
    | zero =>
      rw [timeline, List.getElem?_cons_zero] at first
      obtain rfl := Option.some.inj first
      rw [timeline, List.getElem?_cons_succ] at second
      cases rest with
      | nil => cases second
      | cons next rest =>
        rw [timeline, List.getElem?_cons_zero] at second
        obtain rfl := Option.some.inj second
        rfl
    | succ index =>
      rw [timeline, List.getElem?_cons_succ] at first second
      exact ih first second

end Timeline

section Jobs

variable {k : DeliveryHelpers} {data : WebhookJob} {tries : List DeliveryAttempt}

/-- An attempt is told how many were made before it. -/
theorem triesOf_earlier {index : Nat} {attempt : DeliveryAttempt × Nat}
    (found : (triesOf k data tries)[index]? = some attempt) : attempt.2 = index := by
  have initial : triesOf k data tries <+: tries.zipIdx := made_initial _ _
  obtain ⟨rest, whole⟩ := initial
  have within := (List.getElem?_eq_some_iff.mp found).1
  have same : tries.zipIdx[index]? = some attempt := by
    rw [← whole, List.getElem?_append_left within]
    exact found
  rw [List.getElem?_zipIdx, Option.map_eq_some_iff] at same
  obtain ⟨_, _, rfl⟩ := same
  exact Nat.zero_add index

theorem timeline_triesOf {took : Nat → Time} {start : Time} {index : Nat} {here : DeliveryTime}
    (found : (timeline took start (triesOf k data tries))[index]? = some here) :
    here.earlier = index := by
  have earlier := congrArg (·[index]?) (@timeline_earlier took (triesOf k data tries) start)
  rw [List.getElem?_map, List.getElem?_map, found] at earlier
  obtain ⟨attempt, made, same⟩ := Option.map_eq_some_iff.mp earlier.symm
  rw [← same]
  exact triesOf_earlier made

/-- A job has no second attempt when its budget has none, or when its first one does not fail. -/
theorem length_triesOf_le : (triesOf k data tries).length ≤ 1 ↔
    tries.length ≤ 1 ∨ ∃ first ∈ tries.head?, DeliveryAttempt.fails k data (first, 0) = false := by
  cases tries with
  | nil => exact ⟨fun _ => .inl (Nat.zero_le _), fun _ => Nat.zero_le _⟩
  | cons first rest =>
    rw [triesOf, List.zipIdx_cons, made, List.head?_cons]
    cases fails : DeliveryAttempt.fails k data (first, 0) with
    | false => exact ⟨fun _ => .inr ⟨first, rfl, fails⟩, fun _ => Nat.le_refl _⟩
    | true =>
      have none : ¬∃ other ∈ some first, DeliveryAttempt.fails k data (other, 0) = false := by
        rintro ⟨_, ⟨rfl⟩, returns⟩
        rw [returns] at fails
        cases fails
      rw [or_iff_left none, if_pos rfl]
      cases rest with
      | nil => exact ⟨fun _ => Nat.le_refl _, fun _ => Nat.le_refl _⟩
      | cons second rest =>
        rw [List.zipIdx_cons, made]
        refine ⟨fun short => ?_, fun short => ?_⟩
        · split at short <;> simp at short
        · simp at short

/-- The wait before an attempt is the announced one from the fourth on. -/
theorem wait_documented_iff {took : Nat → Time} {start : Time} {attempt : Nat}
    {before here : DeliveryTime} (later : 2 ≤ attempt)
    (first : (timeline took start (triesOf k data tries))[attempt - 2]? = some before)
    (second : (timeline took start (triesOf k data tries))[attempt - 1]? = some here) :
    here.start = before.finish + documented attempt ↔ 4 ≤ attempt := by
  have next : attempt - 1 = attempt - 2 + 1 := by omega
  rw [next] at second
  rw [timeline_wait first second, timeline_triesOf first, Nat.add_left_cancel_iff]
  obtain rfl | rfl | late : attempt = 2 ∨ attempt = 3 ∨ 4 ≤ attempt := by omega
  · decide
  · decide
  · rw [WebhookProcessor.backoffStrategy, if_neg (by omega), if_neg (by omega), documented,
      if_neg (by omega), if_neg (by omega)]
    exact ⟨fun _ => late, fun _ => rfl⟩

end Jobs

/-- **The waits of a job**, whatever its budget and however long its attempts take: the wait before
an attempt after the first one is as announced from the fourth attempt on, and before no other. So
a job follows the announced schedule exactly when it has no second attempt: its budget has none, or
its first attempt does not fail. -/
theorem waits_documented_iff (k : DeliveryHelpers) (data : WebhookJob)
    (tries : List DeliveryAttempt) (took : Nat → Time) (start : Time) :
    (∀ attempt ≥ 2, ∀ before here,
      (timeline took start (triesOf k data tries))[attempt - 2]? = some before →
      (timeline took start (triesOf k data tries))[attempt - 1]? = some here →
        (here.start = before.finish + documented attempt ↔ 4 ≤ attempt)) ∧
      (Documented start (timeline took start (triesOf k data tries)) ↔
        tries.length ≤ 1 ∨
          ∃ first ∈ tries.head?, DeliveryAttempt.fails k data (first, 0) = false) := by
  refine ⟨fun attempt later before here first second => wait_documented_iff later first second, ?_⟩
  rw [← length_triesOf_le, ← @timeline_length took (triesOf k data tries) start]
  constructor
  · intro follows
    by_contra! second
    have one := List.getElem?_eq_getElem (Nat.lt_of_succ_lt second)
    have two := List.getElem?_eq_getElem second
    have wait := follows.later 2 (Nat.le_refl 2) _ _ one two
    have late := (wait_documented_iff (Nat.le_refl 2) one two).mp wait
    omega
  · intro single
    refine ⟨fun here found => ?_, fun attempt later before here _ found => ?_⟩
    · cases attempts : triesOf k data tries with
      | nil =>
        rw [attempts] at found
        cases found
      | cons first rest =>
        rw [attempts] at found
        obtain rfl := Option.some.inj found
        rfl
    · -- there is no later attempt
      have within := (List.getElem?_eq_some_iff.mp found).1
      omega

/-- **The second attempt does not wait**: a job the endpoint refuses is delivered again at once, and
once more after 30 s. -/
theorem waits_shifted :
    timeline (fun _ => 100) 0 (triesOf Deliveries.Example.helpers Deliveries.Example.data
      (List.replicate 4 (Deliveries.Example.refusal 3))) =
        [⟨0, 0, 100⟩, ⟨1, 100, 200⟩, ⟨2, 30200, 30300⟩, ⟨3, 330300, 330400⟩] ∧
    ¬Documented 0 (timeline (fun _ => 100) 0 (triesOf Deliveries.Example.helpers
      Deliveries.Example.data (List.replicate 4 (Deliveries.Example.refusal 3)))) := by
  have course : timeline (fun _ => 100) 0 (triesOf Deliveries.Example.helpers
      Deliveries.Example.data (List.replicate 4 (Deliveries.Example.refusal 3))) =
        [⟨0, 0, 100⟩, ⟨1, 100, 200⟩, ⟨2, 30200, 30300⟩, ⟨3, 330300, 330400⟩] := by
    decide +kernel
  refine ⟨course, fun follows => ?_⟩
  have wait := follows.later 2 (Nat.le_refl 2) ⟨0, 0, 100⟩ ⟨1, 100, 200⟩
    (by rw [course]; rfl) (by rw [course]; rfl)
  exact absurd wait (by decide)

end WaAutomation.Waits
