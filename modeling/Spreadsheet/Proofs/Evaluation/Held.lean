import Spreadsheet.Proofs.Evaluation.Runs
import Spreadsheet.Proofs.Formula.Formed

/-!
# The values that the machine holds

Values come into the machine as constants of formulas and as contents of cells, and it makes new
ones by applying operations and by collecting ranges. What holds of all of these holds of every
value that is on the stack, in the memory or still to be pushed, however far a run has got.

## Main results

* `State.Holds.moves`: a move keeps what holds of all values, if it holds of the one that it makes.
* `Visits.holds`, `prop_of_evaluateFormula`: so an evaluation keeps what holds of all that comes in,
  to its end and in its result.
-/

namespace Spreadsheet

/-! ## Constants of a tree and its steps -/

namespace Expr

mutual

/-- What the steps of a tree push are its constants. -/
theorem mem_constants_of_push {v : Value} : (e : Expr) → {steps : List Step} →
    e.steps = .ok steps → .push v ∈ steps → v ∈ e.constants
  | .constant w, steps, h, hv => by
    cases h
    simpa [constants] using hv
  | .reference name, steps, h, hv => by
    cases h
    simp at hv
  | .group inner, steps, h, hv => by
    rw [Expr.steps] at h
    rw [constants]
    exact mem_constants_of_push inner h hv
  | .apply operation args, steps, h, hv => by
    rw [Expr.steps] at h
    rw [constants]
    split at h
    · cases hstep : rangeStep args with
      | error e =>
        rw [hstep] at h
        cases h
      | ok step =>
        rw [hstep] at h
        cases h
        rw [rangeStep_eq] at hstep
        cases hcorners : corners args with
        | error e =>
          rw [hcorners] at hstep
          cases hstep
        | ok p =>
          rw [hcorners] at hstep
          cases hstep
          simp at hv
    · cases hargs : stepsOfAll args with
      | error e =>
        rw [hargs] at h
        cases h
      | ok first =>
        rw [hargs] at h
        cases h
        exact mem_constantsOfAll_of_push args hargs (by simpa using hv)

theorem mem_constantsOfAll_of_push {v : Value} : (es : List Expr) → {steps : List Step} →
    stepsOfAll es = .ok steps → .push v ∈ steps → v ∈ constantsOfAll es
  | [], steps, h, hv => by
    cases h
    simp at hv
  | e :: rest, steps, h, hv => by
    rw [stepsOfAll] at h
    rw [constantsOfAll]
    cases hfirst : e.steps with
    | error err =>
      rw [hfirst] at h
      cases h
    | ok first =>
      cases hothers : stepsOfAll rest with
      | error err =>
        rw [hfirst, hothers] at h
        cases h
      | ok others =>
        rw [hfirst, hothers] at h
        cases h
        rcases List.mem_append.1 hv with hleft | hright
        · exact List.mem_append_left _ (mem_constants_of_push e hfirst hleft)
        · exact List.mem_append_right _ (mem_constantsOfAll_of_push rest hothers hright)

end

end Expr

namespace Evaluation

variable {env : Environment} {options : Options} {P : Value → Prop}

/-! ## What comes into the machine -/

/-- All contents of cells, and all constants of formulas in cells, have a property. -/
structure Supplies (env : Environment) (options : Options) (P : Value → Prop) : Prop where
  empty : P .empty
  plain {name : String} {v : Value} (h : env name = some (.value v)) : P v
  constant {name text : String} {e : Expr} {v : Value} (h : env name = some (.formula text))
    (he : Expr.ofFormula text options.maxNesting = .ok e) (hv : v ∈ e.constants) : P v

theorem Supplies.of_plain? (h : Supplies env options P) {name : String} {v : Value}
    (hv : env.plain? name = some v) : P v := by
  rcases Environment.plain?_eq_some.1 hv with ⟨_, rfl⟩ | hvalue
  · exact h.empty
  · exact h.plain hvalue

/-- A frame has steps that push a value. -/
def Frame.Pushes (v : Value) : Frame → Prop
  | .steps todo _ => .push v ∈ todo
  | .range .. => False

/-- What a frame pushes once it has asked for a cell, it was to push before. -/
theorem Frame.Asks.pushes {name : String} {before after : List Frame} (h : Asks name before after)
    {frame : Frame} {v : Value} (hframe : frame ∈ after) (hpushes : frame.Pushes v) :
    ∃ frame ∈ before, frame.Pushes v := by
  cases h with
  | step todo cell rest =>
    rcases List.mem_cons.1 hframe with rfl | hrest
    · exact ⟨_, List.mem_cons_self, List.mem_cons_of_mem _ hpushes⟩
    · exact ⟨frame, List.mem_cons_of_mem _ hrest, hpushes⟩
  | member loaded rest _ _ =>
    rcases List.mem_cons.1 hframe with rfl | hrest
    · cases hpushes
    · exact ⟨frame, List.mem_cons_of_mem _ hrest, hpushes⟩

theorem mem_of_takeTop {count : Nat} {stack taken args left : List Value}
    (h : takeTop count stack taken = some (args, left)) :
    (∀ v ∈ args, v ∈ taken ∨ v ∈ stack) ∧ ∀ v ∈ left, v ∈ stack := by
  fun_induction takeTop count stack taken with
  | case1 stack taken =>
    cases h
    exact ⟨fun v hv => .inl hv, fun v hv => hv⟩
  | case2 n v stack taken ih =>
    obtain ⟨hargs, hleft⟩ := ih h
    refine ⟨fun w hw => ?_, fun w hw => List.mem_cons_of_mem _ (hleft w hw)⟩
    rcases hargs w hw with htaken | hstack
    · exact (List.mem_cons.1 htaken).elim (fun heq => .inr (heq ▸ List.mem_cons_self)) .inl
    · exact .inr (List.mem_cons_of_mem _ hstack)
  | case3 => cases h

namespace State

variable {s t : State}

/-- The next move of the machine makes a value: it applies an operation, or it collects a range. -/
inductive Makes (s : State) : Value → Prop
  | apply {operation : Operation} {count : Nat} {todo : List Step} {cell : Option String}
    {rest : List Frame} {args below : List Value} {v : Value}
    (h : s.frames = .steps (.apply operation count :: todo) cell :: rest)
    (htake : takeTop count s.values [] = some (args, below)) (hv : operation.apply args = .ok v) :
    Makes s v
  | collect {cursor : Range.Cursor} {loaded : Nat} {rest : List Frame} {items below : List Value}
    (h : s.frames = .range cursor loaded :: rest) (hdone : cursor.remaining = 0)
    (htake : takeTop loaded s.values [] = some (items, below)) : Makes s (.list items)

/-- Every value that the machine holds has a property. -/
structure Holds (P : Value → Prop) (s : State) : Prop where
  values {v : Value} (h : v ∈ s.values) : P v
  pushes {frame : Frame} {v : Value} (hframe : frame ∈ s.frames) (h : frame.Pushes v) : P v
  remembered {name : String} {v : Value} (h : s.resolved[name]? = some v) : P v

theorem Holds.taken (hs : s.Holds P) {count : Nat} {args below : List Value}
    (htake : takeTop count s.values [] = some (args, below)) : ∀ v ∈ args, P v := by
  intro v hv
  rcases (mem_of_takeTop htake).1 v hv with htaken | hstack
  · cases htaken
  · exact hs.values hstack

theorem Holds.settled (hs : s.Holds P) (hsupplies : Supplies env options P) {name : String}
    {v : Value} (h : Settled env s.resolved name v) : P v := by
  rcases h with hmemory | ⟨_, hplain⟩
  · exact hs.remembered hmemory
  · exact hsupplies.of_plain? hplain

theorem holds_start {e : Expr} {steps : List Step} (hsteps : e.steps = .ok steps)
    (hconstants : ∀ v ∈ e.constants, P v) : (start steps).Holds P where
  values h := by cases h
  pushes hframe h := by
    rw [List.mem_singleton.1 hframe] at h
    exact hconstants _ (e.mem_constants_of_push hsteps h)
  remembered h := by
    rw [start, Std.TreeMap.getElem?_emptyc] at h
    cases h

/-- Everything still to be pushed after the first of some steps was to be pushed before. -/
theorem Holds.of_tail {step : Step} {todo : List Step} {cell : Option String} {rest : List Frame}
    (hs : s.Holds P) (h : s.frames = .steps (step :: todo) cell :: rest) {frame : Frame} {v : Value}
    (hframe : frame ∈ Frame.steps todo cell :: rest) (hpushes : frame.Pushes v) : P v := by
  rcases List.mem_cons.1 hframe with rfl | hrest
  · have hbefore : (Frame.steps (step :: todo) cell).Pushes v := List.mem_cons_of_mem step hpushes
    exact hs.pushes (h ▸ List.mem_cons_self) hbefore
  · exact hs.pushes (h ▸ List.mem_cons_of_mem _ hrest) hpushes

theorem Holds.values_cons {v : Value} {below : List Value} (hv : P v) (hbelow : ∀ w ∈ below, P w)
    {w : Value} (h : w ∈ v :: below) : P w := by
  rcases List.mem_cons.1 h with rfl | hmem
  · exact hv
  · exact hbelow w hmem

theorem Holds.leave (hs : s.Holds P) (hempty : P .empty) {cell : Option String} {rest : List Frame}
    (h : s.frames = .steps [] cell :: rest) : (s.leave cell rest).Holds P := by
  have hpushes : ∀ frame ∈ rest, ∀ v, frame.Pushes v → P v := fun frame hframe v hv =>
    hs.pushes (h ▸ List.mem_cons_of_mem _ hframe) hv
  cases cell with
  | none => exact ⟨hs.values, fun hframe hv => hpushes _ hframe _ hv, hs.remembered⟩
  | some name =>
    refine ⟨hs.values, fun hframe hv => hpushes _ hframe _ hv, fun {other v} hother => ?_⟩
    have htop : P (s.values.head?.getD .empty) := by
      cases hvalues : s.values with
      | nil => exact hempty
      | cons w below =>
        have hw : w ∈ s.values := by rw [hvalues]; exact List.mem_cons_self
        exact hs.values hw
    rw [State.leave, Std.TreeMap.getElem?_insert] at hother
    split at hother
    · cases hother
      exact htop
    · exact hs.remembered hother

/-- A move keeps what holds of all values, if it holds of the one that it makes. -/
theorem Holds.moves (hs : s.Holds P) (hsupplies : Supplies env options P)
    (hmakes : ∀ v, s.Makes v → P v) (h : Moves env options s t) : t.Holds P := by
  cases h with
  | leave h => exact hs.leave hsupplies.empty h
  | push h =>
    have hv := hs.pushes (h ▸ List.mem_cons_self) List.mem_cons_self
    exact ⟨Holds.values_cons hv fun _ => hs.values, hs.of_tail h, hs.remembered⟩
  | apply h htake hv =>
    exact ⟨Holds.values_cons (hmakes _ (.apply h htake hv))
      fun w hw => hs.values ((mem_of_takeTop htake).2 w hw), hs.of_tail h, hs.remembered⟩
  | range h _ =>
    refine ⟨hs.values, fun hframe hpushes => ?_, hs.remembered⟩
    rcases List.mem_cons.1 hframe with rfl | hrest
    · cases hpushes
    · exact hs.of_tail h hrest hpushes
  | collect h hdone htake =>
    exact ⟨Holds.values_cons (hmakes _ (.collect h hdone htake))
      fun w hw => hs.values ((mem_of_takeTop htake).2 w hw),
      fun hframe hpushes => hs.pushes (h ▸ List.mem_cons_of_mem _ hframe) hpushes, hs.remembered⟩
  | load hasks hv =>
    refine ⟨Holds.values_cons (hs.settled hsupplies hv) fun _ => hs.values,
      fun hframe hpushes => ?_, hs.remembered⟩
    obtain ⟨frame, hbefore, hpushes⟩ := hasks.pushes hframe hpushes
    exact hs.pushes hbefore hpushes
  | enter hasks hopen _ _ he hsteps =>
    refine ⟨hs.values, fun hframe hpushes => ?_, hs.remembered⟩
    rcases List.mem_cons.1 hframe with rfl | hrest
    · exact hsupplies.constant hopen.formula he (Expr.mem_constants_of_push _ hsteps hpushes)
    · obtain ⟨frame, hbefore, hpushes⟩ := hasks.pushes hrest hpushes
      exact hs.pushes hbefore hpushes

/-- The outcome of the last state is on its stack. -/
theorem mem_values_of_finished {v : Value} (h : s.next env options = .finished (.ok v)) :
    v ∈ s.values := by
  unfold next at h
  split at h
  · rw [Progress.finished.injEq, outcome] at h
    split at h
    · next hvalues =>
      cases h
      exact hvalues ▸ List.mem_cons_self
    · cases h
  · split at h
    · cases h
    · cases h

end State

/-! ## The evaluation of a formula -/

/-- The evaluation of a formula comes through a state. -/
def Visits (env : Environment) (options : Options) (text : String) (s : State) : Prop :=
  ∃ e steps, Expr.ofFormula text options.maxNesting = .ok e ∧ e.steps = .ok steps ∧
    State.Reaches env options (.start steps) s

variable {s : State}

/-- What holds of the constants of a formula and of all that comes in from cells holds of every
value on the way, if each state that holds only such values makes only such values. -/
theorem Visits.holds {text : String} (h : Visits env options text s)
    (hsupplies : Supplies env options P)
    (hconstants : ∀ e, Expr.ofFormula text options.maxNesting = .ok e → ∀ v ∈ e.constants, P v)
    (hmakes : ∀ s v, Visits env options text s → s.Holds P → s.Makes v → P v) : s.Holds P := by
  obtain ⟨e, steps, he, hsteps, hreaches⟩ := h
  refine hreaches.invariant (State.holds_start hsteps (hconstants e he))
    fun before _ hbefore hs hmoves => hs.moves hsupplies (fun v => ?_) hmoves
  exact hmakes before v ⟨e, steps, he, hsteps, hbefore⟩ hs

/-- The value of a formula is held at the end of its run. -/
theorem exists_visited_of_evaluateFormula {text : String} {v : Value}
    (h : evaluateFormula env options text = .ok v) :
    ∃ last, Visits env options text last ∧ v ∈ last.values := by
  rw [evaluateFormula] at h
  cases he : Expr.ofFormula text options.maxNesting with
  | error err =>
    rw [he] at h
    cases h
  | ok e =>
    rw [he] at h
    change e.evaluate env options = .ok v at h
    rw [Expr.evaluate] at h
    cases hsteps : e.steps with
    | error err =>
      rw [hsteps] at h
      cases h
    | ok steps =>
      rw [hsteps] at h
      change (State.start steps).run env options = .ok v at h
      obtain ⟨last, hreaches, hlast⟩ := State.exists_last env options (.start steps)
      rw [h] at hlast
      exact ⟨last, ⟨e, steps, he, hsteps, hreaches⟩, State.mem_values_of_finished hlast⟩

/-- The value of a formula has the property that all values on the way to it have. -/
theorem prop_of_evaluateFormula {text : String} {v : Value}
    (hheld : ∀ s, Visits env options text s → s.Holds P)
    (h : evaluateFormula env options text = .ok v) : P v := by
  obtain ⟨last, hvisits, hlast⟩ := exists_visited_of_evaluateFormula h
  exact (hheld last hvisits).values hlast

end Evaluation

end Spreadsheet
