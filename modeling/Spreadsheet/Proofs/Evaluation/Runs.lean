import Mathlib.Logic.Relation
import Spreadsheet.Proofs.Evaluation.Agreement

/-!
# Runs of the machine

A run is made of steps, and a step is one of seven moves: whatever every move preserves holds in
every state that a run reaches. No run goes on for ever, so the machine halts with its outcome after
a certain number of steps.

## Main results

* `State.moves_of_follows`: all that one step can do.
* `State.Reaches.invariant`: what one move preserves holds in every state that is reached.
* `State.exists_last`: every run reaches a state from which the machine does not go on.
* `Expr.evaluate_halts`: every evaluation halts after a certain number of steps.
-/

namespace Spreadsheet

namespace Evaluation

/-- The innermost frame is about to load a cell; `after` is what the frames are when it does. -/
inductive Frame.Asks (name : String) :
    List Frame → List Frame → Prop
  | step (todo : List Step) (cell : Option String) (rest : List Frame) :
    Asks name (.steps (.load name :: todo) cell :: rest) (.steps todo cell :: rest)
  | member {cursor : Range.Cursor} (loaded : Nat) (rest : List Frame) (h : cursor.remaining ≠ 0)
    (hname : cursor.next.name = name) :
    Asks name (.range cursor loaded :: rest) (.range cursor.advance (loaded + 1) :: rest)

namespace State

variable {env : Environment} {options : Options} {s t : State}

/-! ## Moves -/

/-- What one step of the machine can do. -/
inductive Moves (env : Environment) (options : Options) (s : State) : State → Prop
  /-- The steps of the innermost frame have all been made. -/
  | leave {cell : Option String} {rest : List Frame} (h : s.frames = .steps [] cell :: rest) :
    Moves env options s (s.leave cell rest)
  /-- A constant is put on the stack. -/
  | push {v : Value} {todo : List Step} {cell : Option String} {rest : List Frame}
    (h : s.frames = .steps (.push v :: todo) cell :: rest) :
    Moves env options s { s with frames := .steps todo cell :: rest, values := v :: s.values }
  /-- An operation is applied to values of the stack. -/
  | apply {operation : Operation} {count : Nat} {todo : List Step} {cell : Option String}
    {rest : List Frame} {args below : List Value} {v : Value}
    (h : s.frames = .steps (.apply operation count :: todo) cell :: rest)
    (htake : takeTop count s.values [] = some (args, below)) (hv : operation.apply args = .ok v) :
    Moves env options s { s with frames := .steps todo cell :: rest, values := v :: below }
  /-- A range is entered. -/
  | range {start stop : String} {todo : List Step} {cell : Option String} {rest : List Frame}
    {r : Range} (h : s.frames = .steps (.range start stop :: todo) cell :: rest)
    (hr : options.rangeBetween start stop = .ok r) :
    Moves env options s
      { s with frames := .range r.cursor 0 :: .steps todo cell :: rest }
  /-- The values of the cells of a range are made a list. -/
  | collect {cursor : Range.Cursor} {loaded : Nat} {rest : List Frame} {items below : List Value}
    (h : s.frames = .range cursor loaded :: rest) (hdone : cursor.remaining = 0)
    (htake : takeTop loaded s.values [] = some (items, below)) :
    Moves env options s { s with frames := rest, values := .list items :: below }
  /-- A cell has a value at once. -/
  | load {name : String} {frames : List Frame} {v : Value} (h : Frame.Asks name s.frames frames)
    (hv : Settled env s.resolved name v) :
    Moves env options s { s with frames, values := v :: s.values }
  /-- The steps of a formula cell are begun. -/
  | enter {name text : String} {frames : List Frame} {e : Expr} {steps : List Step}
    (h : Frame.Asks name s.frames frames) (hopen : Unresolved env s.resolved name text)
    (hcycle : options.detectCycles = true → name ∉ s.resolving)
    (hdepth : s.depth < options.maxReferences)
    (he : Expr.ofFormula text options.maxNesting = .ok e) (hsteps : e.steps = .ok steps) :
    Moves env options s ({ s with frames }.enter options name steps)

theorem replaceTop_eq_ok {count : Nat} {f : List Value → Outcome}
    (h : s.replaceTop count f = .ok t) :
    ∃ args below v, takeTop count s.values [] = some (args, below) ∧ f args = .ok v ∧
      t = { s with values := v :: below } := by
  unfold replaceTop at h
  split at h
  · cases h
  · next args below htake =>
    split at h
    · cases h
    · next v hv =>
      cases h
      exact ⟨args, below, v, htake, hv, rfl⟩

/-- Loading a cell is one of two moves. -/
theorem moves_of_load {name : String} {frames : List Frame}
    (hasks : Frame.Asks name s.frames frames)
    (h : { s with frames }.load env options name = .ok t) : Moves env options s t := by
  unfold State.load at h
  split at h
  · next v hmemory =>
    cases h
    exact .load hasks (.inl hmemory)
  · next hmemory =>
    split at h
    · cases h
    · next hcycle =>
      split at h
      · next henv =>
        cases h
        exact .load hasks (.inr ⟨hmemory, Environment.plain?_eq_some.2 (.inl ⟨henv, rfl⟩)⟩)
      · next v henv =>
        cases h
        exact .load hasks (.inr ⟨hmemory, Environment.plain?_eq_some.2 (.inr henv)⟩)
      · next text henv =>
        split at h
        · next hdepth =>
          cases he : Expr.ofFormula text options.maxNesting with
          | error err =>
            rw [he] at h
            cases h
          | ok e =>
            cases hsteps : e.steps with
            | error err =>
              simp only [he, hsteps, bind, Except.bind] at h
              cases h
            | ok steps =>
              simp only [he, hsteps, bind, Except.bind, pure, Except.pure] at h
              cases h
              refine .enter hasks ⟨hmemory, henv⟩ (fun hdetect => ?_) hdepth he hsteps
              simpa [hdetect] using hcycle
        · cases h

/-- Every step is a move. -/
theorem moves_of_follows (h : Follows env options t s) : Moves env options s t := by
  obtain ⟨frame, rest, hframes, hproceed⟩ := follows_iff.1 h
  match frame with
  | .steps [] cell =>
    cases hproceed
    exact .leave hframes
  | .steps (.push v :: todo) cell =>
    cases hproceed
    exact .push hframes
  | .steps (.load name :: todo) cell =>
    exact moves_of_load (hframes ▸ .step todo cell rest) hproceed
  | .steps (.range start stop :: todo) cell =>
    simp only [proceed, perform, enterRange_eq_map] at hproceed
    cases hr : options.rangeBetween start stop with
    | error e =>
      rw [hr] at hproceed
      cases hproceed
    | ok r =>
      rw [hr] at hproceed
      cases hproceed
      exact .range hframes hr
  | .steps (.apply operation count :: todo) cell =>
    obtain ⟨args, below, v, htake, hv, rfl⟩ := replaceTop_eq_ok hproceed
    exact .apply hframes htake hv
  | .range cursor loaded =>
    simp only [proceed] at hproceed
    split at hproceed
    · next hdone =>
      obtain ⟨items, below, v, htake, hv, rfl⟩ := replaceTop_eq_ok hproceed
      cases hv
      exact .collect hframes hdone htake
    · next hmore => exact moves_of_load (hframes ▸ .member loaded rest hmore rfl) hproceed

/-! ## The states of a run -/

/-- One state is reached in the run from another. -/
def Reaches (env : Environment) (options : Options) : State → State → Prop :=
  Relation.ReflTransGen fun before after => Follows env options after before

/-- What every move preserves, a run preserves. -/
theorem Reaches.invariant {P : State → Prop} (h : Reaches env options s t) (hs : P s)
    (hmoves : ∀ before after, Reaches env options s before → P before →
      Moves env options before after → P after) : P t := by
  induction h with
  | refl => exact hs
  | tail hbefore hfollows ih => exact hmoves _ _ hbefore ih (moves_of_follows hfollows)

/-- What holds in a state and in all that are reached from the next one holds in all that are
reached. -/
theorem forall_reaches_of_next {P : State → Prop} (hnext : s.next env options = .running t)
    (hs : P s) (ht : ∀ u, Reaches env options t u → P u) : ∀ u, Reaches env options s u → P u := by
  intro u hu
  rcases hu.cases_head with rfl | ⟨after, hfollows, hrest⟩
  · exact hs
  · have hafter : s.next env options = .running after := hfollows
    rw [hnext] at hafter
    cases hafter
    exact ht u hrest

/-- From a state where the machine halts, no other is reached. -/
theorem forall_reaches_of_finished {P : State → Prop} {outcome : Outcome}
    (hnext : s.next env options = .finished outcome) (hs : P s) :
    ∀ u, Reaches env options s u → P u := by
  intro u hu
  rcases hu.cases_head with rfl | ⟨after, hfollows, _⟩
  · exact hs
  · have hafter : s.next env options = .running after := hfollows
    rw [hnext] at hafter
    cases hafter

/-- The outcome of a run is that of the run from its next state. -/
theorem run_of_follows (h : Follows env options t s) :
    s.run env options = t.run env options := by
  have hnext : s.next env options = .running t := h
  rw [run_eq, hnext]

/-- Every run reaches a state from which the machine does not go on. -/
theorem exists_last (env : Environment) (options : Options) (s : State) :
    ∃ last, Reaches env options s last ∧
      last.next env options = .finished (s.run env options) := by
  induction s using (wellFounded env options).induction with
  | h s ih =>
    cases hnext : s.next env options with
    | finished outcome =>
      refine ⟨s, .refl, ?_⟩
      rw [hnext, State.run_eq, hnext]
    | running t =>
      obtain ⟨last, hreaches, hlast⟩ := ih t hnext
      refine ⟨last, .head hnext hreaches, ?_⟩
      rw [hlast, run_of_follows hnext]

/-! ## The number of steps -/

/-- The machine halts with an outcome after `n` steps and not before. -/
def HaltsAfter (env : Environment) (options : Options) (s : State) (n : Nat)
    (outcome : Outcome) : Prop :=
  ∀ limit, s.runFor env options limit = if limit < n then none else some outcome

theorem haltsAfter_one {outcome : Outcome} (h : s.next env options = .finished outcome) :
    s.HaltsAfter env options 1 outcome := by
  intro limit
  cases limit with
  | zero => rfl
  | succ limit =>
    rw [runFor, h, if_neg (by omega)]

theorem HaltsAfter.of_follows {n : Nat} {outcome : Outcome} (h : Follows env options t s)
    (ht : t.HaltsAfter env options n outcome) : s.HaltsAfter env options (n + 1) outcome := by
  have hnext : s.next env options = .running t := h
  intro limit
  cases limit with
  | zero => rfl
  | succ limit =>
    rw [runFor, hnext]
    exact (ht limit).trans (if_congr (by omega) rfl rfl)

/-- From every state, the machine halts after a certain number of steps. -/
theorem exists_haltsAfter (env : Environment) (options : Options) (s : State) :
    ∃ n, s.HaltsAfter env options n (s.run env options) := by
  induction s using (wellFounded env options).induction with
  | h s ih =>
    rw [State.run_eq]
    cases hnext : s.next env options with
    | finished outcome => exact ⟨1, haltsAfter_one hnext⟩
    | running t =>
      obtain ⟨n, hn⟩ := ih t hnext
      exact ⟨n + 1, hn.of_follows hnext⟩

end State

end Evaluation

open Evaluation

/-- Every evaluation halts. An expression whose ranges lack cell names for corners has no steps and
fails at once; the steps of every other one bring the machine to its outcome, be it a value or an
error, after a certain number of steps, in every environment and whether or not cycles are looked
for. -/
theorem Expr.evaluate_halts (env : Environment) (options : Options) (e : Expr) :
    (∃ err, e.steps = .error err ∧ e.evaluate env options = .error err) ∨
      ∃ steps, e.steps = .ok steps ∧
        ∃ n, (State.start steps).HaltsAfter env options n (e.evaluate env options) := by
  rw [evaluate]
  cases e.steps with
  | error err => exact .inl ⟨err, rfl, rfl⟩
  | ok steps => exact .inr ⟨steps, rfl, State.exists_haltsAfter env options _⟩

end Spreadsheet
