import Spreadsheet.Proofs.Evaluation.Runs

/-!
# What a run looks up

The environment plays a part in a step only if the step loads a cell whose value is not remembered
and which is not found to be on a cycle; then that one cell is looked up. So the outcome of a run
depends on the cells that the run looks up, and on no other cell.

## Main results

* `State.next_congr`: a step depends on the cell that it looks up.
* `State.exists_lookups_of_reaches`: a run looks up what its later part does, last.
* `State.run_eq_of_lookups`: a run depends on the cells that it looks up.
-/

namespace Spreadsheet.Evaluation

/-- The cell that a frame is about to load, if it is. -/
def Frame.asked? : Frame → Option String
  | .steps (.load name :: _) _ => some name
  | .steps _ _ => none
  | .range cursor _ => if cursor.remaining = 0 then none else some cursor.next.name

namespace State

variable {env env' : Environment} {options : Options} {s t : State}

/-- A cell that is loaded has to be looked up: its value is not remembered, and it is not found to
be on a cycle. -/
def looksUp (options : Options) (s : State) (name : String) : Bool :=
  s.resolved[name]?.isNone && !(options.detectCycles && s.resolving.contains name)

/-- The cell that the next step looks up, if there is one. -/
def lookup? (options : Options) (s : State) : Option String :=
  (s.frames.head?.bind Frame.asked?).filter (s.looksUp options)

theorem load_congr {name : String} (h : s.looksUp options name = true → env' name = env name) :
    s.load env' options name = s.load env options name := by
  unfold load
  cases hremembered : s.resolved[name]? with
  | some v => rfl
  | none =>
    dsimp only
    split
    · rfl
    · next hcycle =>
      have hlooks : s.looksUp options name = true := by
        rw [looksUp, hremembered, eq_false_of_ne_true hcycle]
        rfl
      rw [h hlooks]

/-- A step depends on the environment at the cell that it looks up only. -/
theorem next_congr (h : ∀ name, s.lookup? options = some name → env' name = env name) :
    s.next env' options = s.next env options := by
  have hload : ∀ frame rest name, s.frames = frame :: rest → frame.asked? = some name →
      ∀ frames, { s with frames }.load env' options name =
        { s with frames }.load env options name := by
    intro frame rest name hframes hasked frames
    refine load_congr fun hlooks => h name ?_
    rw [lookup?, hframes, List.head?_cons, Option.bind_some, hasked]
    exact Option.filter_some_pos hlooks
  unfold next
  split
  · rfl
  · next frame rest hframes =>
    have hproceed : s.proceed env' options rest frame = s.proceed env options rest frame := by
      match frame with
      | .steps [] cell => rfl
      | .steps (.push v :: todo) cell => rfl
      | .steps (.load name :: todo) cell => exact hload _ rest name hframes rfl _
      | .steps (.range start stop :: todo) cell => rfl
      | .steps (.apply operation count :: todo) cell => rfl
      | .range cursor loaded =>
        simp only [proceed]
        split
        · rfl
        · next hmore => exact hload _ rest _ hframes (if_neg hmore) _
    rw [hproceed]

/-! ## The lookups of a run -/

/-- The cells that a run looks up, in their order. -/
def lookups (env : Environment) (options : Options) (s : State) : List String :=
  match _h : s.next env options with
  | .finished _ => (s.lookup? options).toList
  | .running t => (s.lookup? options).toList ++ t.lookups env options
termination_by (State.wellFounded env options).wrap s
decreasing_by exact _h

theorem lookups_of_finished {outcome : Outcome} (h : s.next env options = .finished outcome) :
    s.lookups env options = (s.lookup? options).toList := by
  rw [lookups]
  split
  · rfl
  · next hnext =>
    rw [h] at hnext
    cases hnext

theorem lookups_of_follows (h : Follows env options t s) :
    s.lookups env options = (s.lookup? options).toList ++ t.lookups env options := by
  have hrunning : s.next env options = .running t := h
  rw [lookups]
  split
  · next hnext =>
    rw [hrunning] at hnext
    cases hnext
  · next after hnext =>
    rw [hrunning] at hnext
    cases hnext
    rfl

theorem mem_lookups {name : String} (h : s.lookup? options = some name) :
    name ∈ s.lookups env options := by
  cases hnext : s.next env options with
  | finished outcome =>
    rw [lookups_of_finished hnext, h]
    exact List.mem_cons_self
  | running t =>
    rw [lookups_of_follows hnext, h]
    exact List.mem_cons_self

/-- What a later part of a run looks up comes last in what the run looks up. -/
theorem exists_lookups_of_reaches (h : Reaches env options s t) :
    ∃ before, s.lookups env options = before ++ t.lookups env options := by
  induction h using Relation.ReflTransGen.head_induction_on with
  | refl => exact ⟨[], rfl⟩
  | head hfollows _ ih =>
    obtain ⟨before, hbefore⟩ := ih
    exact ⟨_ ++ before, by rw [lookups_of_follows hfollows, hbefore, List.append_assoc]⟩

/-- The outcome of a run is that of the run from any state that it comes through. -/
theorem run_of_reaches (h : Reaches env options s t) : s.run env options = t.run env options := by
  induction h with
  | refl => rfl
  | tail _ hfollows ih => exact ih.trans (run_of_follows hfollows)

/-- The outcome of a run, and what it looks up, depend on the environment at the cells that are
looked up only. -/
theorem run_eq_of_lookups (h : ∀ name ∈ s.lookups env options, env' name = env name) :
    s.run env' options = s.run env options ∧ s.lookups env' options = s.lookups env options := by
  induction s using (wellFounded env options).induction with
  | h s ih =>
    have hsame : s.next env' options = s.next env options :=
      next_congr fun name hname => h name (mem_lookups hname)
    -- The two runs take the same step, so they look up the same cell and go on in one state.
    cases hnext : s.next env options with
    | finished outcome =>
      have hnext' := hsame.trans hnext
      exact ⟨by rw [run_eq, run_eq, hnext, hnext'],
        by rw [lookups_of_finished hnext, lookups_of_finished hnext']⟩
    | running t =>
      have hnext' := hsame.trans hnext
      obtain ⟨hrun, hlookups⟩ := ih t hnext fun name hname => h name (by
        rw [lookups_of_follows hnext]
        exact List.mem_append_right _ hname)
      exact ⟨by rw [run_of_follows hnext, run_of_follows hnext', hrun],
        by rw [lookups_of_follows hnext, lookups_of_follows hnext', hlookups]⟩

end State

end Spreadsheet.Evaluation
