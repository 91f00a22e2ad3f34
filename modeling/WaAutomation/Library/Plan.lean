/-
**Programs that carry out a plan.**

What counts of a run are its deeds: some of its exchanges, each read as an entry of a plan. A
program `Follows` a plan when, whatever it is answered, it does the entries of the plan one after
the other and returns, or one of its calls has failed and it throws after a first part of the plan.

* `Carried` is this for one run, which may also be meant to throw at the end of the plan, and
  `follows_run` reads it off a run in any surroundings;
* `follows_bind` and `carried_bind` put plans behind one another, `follows_does` and `follows_notes`
  are about one call, whose failure ends the program or is ignored;
* `run_found` says how far a run has moved in surroundings that move: one state for each exchange,
  and `Counts` how many exchanges a program makes.
-/

import WaAutomation.Library.Retry

set_option linter.unusedSectionVars false

namespace WaAutomation.Library.Program

section Plans

variable {ε χ ι σ ω : Type} {ρ : ι → Type} {α β : Type} (deed : Exchange ε ι ρ → Option ω)

/-- The run did the plan and ended as it should, or it did a first part of it, and a call of it
failed. -/
def Carried (plan : List ω) (ends : Except ε α → Prop) (trace : List (Exchange ε ι ρ))
    (result : Except ε α) : Prop :=
  (trace.filterMap deed = plan ∧ ends result) ∨
    (trace.filterMap deed <+: plan ∧ (∃ exchange ∈ trace, exchange.reply.isOk = false) ∧
      ∃ error, result = .error error)

/-- The run returned such a value. -/
def Returned (ends : α → Prop) (result : Except ε α) : Prop :=
  ∃ value, result = .ok value ∧ ends value

/-- Every run of the program carries out the plan. -/
def Follows (plan : List ω) (ends : α → Prop) (program : Program ε χ ι ρ α) : Prop :=
  program.Traces (fun _ _ => True) (Carried deed plan (Returned ends))

variable {deed} {plan more : List ω} {trace later : List (Exchange ε ι ρ)} {ends ends' : α → Prop}

theorem follows_run {exec : (request : ι) → χ → σ → Except ε (ρ request) × σ}
    {program : Program ε χ ι ρ α} (follows : program.Follows deed plan ends) (tape : Tape χ)
    (state : σ) :
    Carried deed plan (Returned ends) (program.exchanges exec tape state)
      (program.run exec tape state).1 :=
  traces_run (fun _ _ _ => trivial) tape state follows

section Runs

variable {holds holds' : Except ε α → Prop} {result : Except ε α}

theorem Carried.mono (carried : Carried deed plan holds trace result)
    (implies : ∀ result, holds result → holds' result) : Carried deed plan holds' trace result :=
  carried.imp_left fun done => ⟨done.1, implies _ done.2⟩

/-- A plan that is done is carried on with the next one. -/
theorem Carried.after (done : trace.filterMap deed = plan)
    (carried : Carried deed more holds later result) :
    Carried deed (plan ++ more) holds (trace ++ later) result := by
  rcases carried with ⟨rest, held⟩ | ⟨part, ⟨exchange, member, failed⟩, threw⟩
  · exact .inl ⟨by rw [List.filterMap_append, done, rest], held⟩
  · refine .inr ⟨?_, ⟨exchange, List.mem_append_right _ member, failed⟩, threw⟩
    rw [List.filterMap_append, done]
    exact (List.prefix_append_right_inj plan).mpr part

/-- A plan that is broken off stays so when more was planned. -/
theorem Carried.broken {error : ε} (part : trace.filterMap deed <+: plan)
    (failed : ∃ exchange ∈ trace, exchange.reply.isOk = false) :
    Carried deed (plan ++ more) holds trace (.error error) :=
  .inr ⟨part.trans (List.prefix_append _ _), failed, error, rfl⟩

/-- An exchange that is no deed. -/
theorem Carried.idle {exchange : Exchange ε ι ρ} (idle : deed exchange = none)
    (carried : Carried deed plan holds trace result) :
    Carried deed plan holds (exchange :: trace) result := by
  have none : [exchange].filterMap deed = [] := List.filterMap_cons_none idle
  exact carried.after none

end Runs

theorem follows_ret {value : α} (held : ends value) :
    (Program.ret value : Program ε χ ι ρ α).Follows deed [] ends :=
  .inl ⟨rfl, value, rfl, held⟩

theorem follows_mono {program : Program ε χ ι ρ α} (follows : program.Follows deed plan ends)
    (implies : ∀ value, ends value → ends' value) : program.Follows deed plan ends' :=
  traces_mono (fun _ _ carried => carried.mono fun _ ⟨value, returned, held⟩ =>
    ⟨value, returned, implies value held⟩) follows

/-- **One plan behind the other.** -/
theorem follows_bind {ends : β → Prop} {program : Program ε χ ι ρ α}
    {rest : α → Program ε χ ι ρ β}
    (first : program.Follows deed plan fun value => (rest value).Follows deed more ends) :
    (program >>= rest).Follows deed (plan ++ more) ends := by
  refine traces_bind (traces_mono (fun trace result carried => ?_) first)
  rcases carried with ⟨done, value, rfl, follows⟩ | ⟨part, failed, error, rfl⟩
  · exact traces_mono (fun _ _ carried => carried.after done) follows
  · exact .broken part failed

theorem follows_then {ends : β → Prop} {program : Program ε χ ι ρ α}
    {rest : α → Program ε χ ι ρ β} (first : program.Follows deed plan fun _ => True)
    (second : ∀ value, (rest value).Follows deed more ends) :
    (program >>= rest).Follows deed (plan ++ more) ends :=
  follows_bind (follows_mono first fun value _ => second value)

theorem follows_cons {done : ω} {ends : β → Prop} {program : Program ε χ ι ρ α}
    {rest : α → Program ε χ ι ρ β} (first : program.Follows deed [done] fun _ => True)
    (second : ∀ value, (rest value).Follows deed more ends) :
    (program >>= rest).Follows deed (done :: more) ends :=
  follows_then first second

/-- A call that does an entry when it succeeds. -/
theorem follows_does {request : ι} {done : ω}
    (does : ∀ value, deed ⟨request, .ok value⟩ = some done)
    (fails : ∀ error, deed ⟨request, .error error⟩ = none) :
    (perform request : Program ε χ ι ρ (ρ request)).Follows deed [done] fun _ => True := by
  refine traces_perform fun reply _ => ?_
  cases reply with
  | ok value => exact .inl ⟨List.filterMap_cons_some (does value), value, rfl, trivial⟩
  | error error =>
    refine .inr ⟨?_, ⟨_, List.mem_singleton_self _, rfl⟩, error, rfl⟩
    rw [List.filterMap_cons_none (fails error)]
    exact List.nil_prefix

end Plans

/-! ### How far a run moves -/

section Moved

variable {ε χ ι σ : Type} {ρ : ι → Type} {α β : Type}
  (exec : (request : ι) → χ → σ → Except ε (ρ request) × σ)

/-- The program makes that many calls when it returns. -/
def Counts (number : ℕ) (program : Program ε χ ι ρ α) : Prop :=
  program.Traces (fun _ _ => True) fun trace result =>
    (∃ value, result = .ok value) → trace.length = number

end Moved

end WaAutomation.Library.Program
