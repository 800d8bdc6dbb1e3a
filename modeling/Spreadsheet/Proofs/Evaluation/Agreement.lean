import Spreadsheet.Evaluation.Evaluate
import Spreadsheet.Proofs.Evaluation.Retrieval

/-!
# The machine resolves cells by recursion

The machine keeps what it has interrupted as a list of frames. The frames that it puts on top of a
given one, until it comes back to it, do together what one call of the recursion with a memory does;
so a run of the machine is the recursion, for every environment and all options.

## Main results

* `run_congr`: how the set of cells being resolved is stored does not matter.
* `run_steps`: the machine makes the steps of a frame as an inquiry answered by the recursion.
* `evaluate_eq_retrieve`, `evaluateCell_eq_retrieve`: an evaluation is the recursion.
-/

namespace Spreadsheet.Evaluation.State

variable {env : Environment} {options : Options}

/-- Goes on to the end, unless there is an error already. -/
def resume (env : Environment) (options : Options) : Except FormulaError State → Outcome
  | .ok s => s.run env options
  | .error e => .error e

theorem run_eq (s : State) :
    s.run env options =
      match s.next env options with
      | .finished outcome => outcome
      | .running t => t.run env options := by
  rw [run]
  split <;> simp_all

theorem run_nil (s : State) (h : s.frames = []) : s.run env options = s.outcome := by
  rw [run_eq, next, h]

/-- The machine goes on with the innermost frame. -/
theorem run_cons {s : State} {frame : Frame} {rest : List Frame} (h : s.frames = frame :: rest) :
    s.run env options = resume env options (s.proceed env options rest frame) := by
  rw [run_eq, next, h]
  dsimp only
  cases s.proceed env options rest frame <;> rfl

/-! ## Storing the cells that are being resolved -/

/-- States that differ at most in how the set of the cells being resolved is stored. -/
structure Alike (s t : State) : Prop where
  frames : s.frames = t.frames
  values : s.values = t.values
  resolved : s.resolved = t.resolved
  depth : s.depth = t.depth
  resolving : ∀ name, s.resolving.contains name = t.resolving.contains name

/-- Two ways to go on that fail alike or lead to states that are alike. -/
inductive GoOnAlike : Except FormulaError State → Except FormulaError State → Prop
  | fail (e : FormulaError) : GoOnAlike (.error e) (.error e)
  | go {s t : State} (h : Alike s t) : GoOnAlike (.ok s) (.ok t)

theorem Alike.withFrames {s t : State} (h : Alike s t) (frames : List Frame) :
    Alike { s with frames } { t with frames } :=
  ⟨rfl, h.values, h.resolved, h.depth, h.resolving⟩

theorem Alike.push {s t : State} (h : Alike s t) (v : Value) : Alike (s.push v) (t.push v) :=
  ⟨h.frames, congrArg (v :: ·) h.values, h.resolved, h.depth, h.resolving⟩

theorem Alike.enter {s t : State} (h : Alike s t) (name : String) (steps : List Step) :
    Alike (s.enter options name steps) (t.enter options name steps) where
  frames := congrArg (Frame.steps steps (some name) :: ·) h.frames
  values := h.values
  resolved := h.resolved
  depth := congrArg (· + 1) h.depth
  resolving other := by
    simp only [State.enter]
    split
    · rw [Std.TreeSet.contains_insert, Std.TreeSet.contains_insert, h.resolving]
    · exact h.resolving other

theorem Alike.leave {s t : State} (h : Alike s t) (cell : Option String) (rest : List Frame) :
    Alike (s.leave cell rest) (t.leave cell rest) := by
  cases cell with
  | none => exact h.withFrames rest
  | some name =>
    exact
      { frames := rfl
        values := h.values
        resolved := by simp only [State.leave, h.resolved, h.values]
        depth := congrArg (· - 1) h.depth
        resolving := fun other => by
          simp only [State.leave, Std.TreeSet.contains_erase, h.resolving] }

theorem Alike.replaceTop {s t : State} (h : Alike s t) (count : Nat) (f : List Value → Outcome) :
    GoOnAlike (s.replaceTop count f) (t.replaceTop count f) := by
  unfold State.replaceTop
  rw [h.values]
  split
  · exact .fail _
  · split
    · exact .fail _
    · exact .go ⟨h.frames, rfl, h.resolved, h.depth, h.resolving⟩

theorem Alike.enterRange {s t : State} (h : Alike s t) (start stop : String) :
    GoOnAlike (s.enterRange options start stop) (t.enterRange options start stop) := by
  unfold State.enterRange
  split
  · exact .fail _
  · split
    · exact .fail _
    · rw [h.frames]
      exact .go (h.withFrames _)

theorem Alike.load {s t : State} (h : Alike s t) (name : String) :
    GoOnAlike (s.load env options name) (t.load env options name) := by
  unfold State.load
  rw [h.resolved, h.resolving, h.depth]
  split
  · exact .go (h.push _)
  · split
    · exact .fail _
    · split
      · exact .go (h.push _)
      · exact .go (h.push _)
      · next text _ =>
        split
        · cases Expr.ofFormula text options.maxNesting with
          | error e => exact .fail e
          | ok e =>
            cases hsteps : e.steps with
            | error err =>
              simp only [bind, Except.bind, hsteps]
              exact .fail err
            | ok steps =>
              simp only [bind, Except.bind, pure, Except.pure, hsteps]
              exact .go (h.enter name steps)
        · exact .fail _

theorem Alike.proceed {s t : State} (h : Alike s t) (rest : List Frame) (frame : Frame) :
    GoOnAlike (s.proceed env options rest frame) (t.proceed env options rest frame) := by
  cases frame with
  | steps todo cell =>
    cases todo with
    | nil => exact .go (h.leave cell rest)
    | cons step todo =>
      have hframes := h.withFrames (.steps todo cell :: rest)
      cases step with
      | push v => exact .go (hframes.push v)
      | load name => exact hframes.load name
      | range start stop => exact hframes.enterRange start stop
      | apply operation count => exact hframes.replaceTop count operation.apply
  | range cursor loaded =>
    simp only [State.proceed]
    split
    · exact (h.withFrames rest).replaceTop _ _
    · exact (h.withFrames _).load _

/-- How the set of the cells being resolved is stored does not matter. -/
theorem run_congr {s t : State} (h : Alike s t) : s.run env options = t.run env options := by
  induction s using (wellFounded env options).induction generalizing t with
  | h s ih =>
    cases hframes : s.frames with
    | nil =>
      rw [run_nil s hframes, run_nil t (h.frames ▸ hframes), outcome, outcome, h.values]
    | cons frame rest =>
      have ht : t.frames = frame :: rest := h.frames ▸ hframes
      rw [run_cons hframes, run_cons ht]
      have halike : GoOnAlike (s.proceed env options rest frame)
          (t.proceed env options rest frame) := h.proceed rest frame
      revert halike
      generalize hnext : s.proceed env options rest frame = a
      generalize t.proceed env options rest frame = b
      intro halike
      cases halike with
      | fail e => rfl
      | go hgo => exact ih _ (follows_iff.2 ⟨frame, rest, hframes, hnext⟩) hgo

/-! ## One level of the recursion -/

/-- The set of the cells being resolved is the path, if cycles are to be found, and only formula
cells are on the path. -/
structure Tracks (env : Environment) (options : Options) (path : List String)
    (resolving : Std.TreeSet String) : Prop where
  contains (name : String) : resolving.contains name = (options.detectCycles && path.contains name)
  formula (name : String) (h : name ∈ path) : env.plain? name = none

/-- At a depth, loading a cell is what the recursion does on so many levels. -/
def LoadsByRetrieval (env : Environment) (options : Options) (levels depth : Nat) : Prop :=
  ∀ frames values resolved resolving path name, Tracks env options path resolving →
    resume env options (load env options ⟨frames, values, resolved, resolving, depth⟩ name) =
      retrieve env options levels path name resolved >>= fun p =>
        run env options ⟨frames, p.1 :: values, p.2, resolving, depth⟩

theorem replaceTop_eq_map (s : State) (count : Nat) (f : List Value → Outcome) :
    s.replaceTop count f =
      (Step.replaceTop count f s.values).map fun values => { s with values } := by
  unfold replaceTop Step.replaceTop
  cases takeTop count s.values [] with
  | none => rfl
  | some p =>
    dsimp only
    cases f p.1 <;> rfl

theorem enterRange_eq_map (s : State) (start stop : String) :
    s.enterRange options start stop =
      (options.rangeBetween start stop).map fun r =>
        { s with frames := .range r.cursor 0 :: s.frames } := by
  unfold enterRange Options.rangeBetween
  cases Range.ofNames start stop with
  | error e => rfl
  | ok r =>
    dsimp only
    split <;> rfl

variable {levels depth : Nat} {path : List String} {resolving : Std.TreeSet String}

/-- The machine walks through a range as through the list of its cells. The values of the cells that
were loaded, `vs`, are on the top of the stack. -/
theorem run_range (h : LoadsByRetrieval env options levels depth)
    (htracks : Tracks env options path resolving) (rest : List Frame) (values vs : List Value)
    (resolved : Memory) (cursor : Range.Cursor) :
    run env options
        ⟨.range cursor vs.length :: rest, vs.reverse ++ values, resolved, resolving, depth⟩ =
      (Inquiry.askAll (cursor.ahead.map Position.name)).run (retrieve env options levels path)
          resolved >>= fun p =>
        run env options ⟨rest, .list (vs ++ p.1) :: values, p.2, resolving, depth⟩ := by
  induction hn : cursor.remaining generalizing cursor vs resolved with
  | zero =>
    rw [run_cons rfl, proceed, if_pos hn, replaceTop_eq_map, replaceTop_reverse_append,
      Range.Cursor.ahead_of_remaining_eq_zero hn]
    simp only [List.map_nil, Inquiry.askAll, Inquiry.run_pure]
    change run env options _ = run env options _
    rw [List.append_nil]
  | succ n ih =>
    have hne : cursor.remaining ≠ 0 := by omega
    rw [run_cons rfl, proceed, if_neg hne, h _ _ _ _ path _ htracks,
      Range.Cursor.ahead_of_remaining_ne_zero hne, List.map_cons, Inquiry.askAll, Inquiry.run_ask,
      bind_assoc]
    refine congrArg (_ >>= ·) (funext fun p => ?_)
    have hrest := ih (vs ++ [p.1]) p.2 cursor.advance (by simp [Range.Cursor.advance, hn])
    rw [List.length_append, List.reverse_append] at hrest
    refine hrest.trans ?_
    rw [Inquiry.run_bind, bind_assoc]
    refine congrArg (_ >>= ·) (funext fun q => ?_)
    simp [List.append_assoc, bind, Except.bind]

/-- The machine makes the steps of a frame as an inquiry answered by the recursion. -/
theorem run_steps (h : LoadsByRetrieval env options levels depth)
    (htracks : Tracks env options path resolving) (cell : Option String) (rest : List Frame)
    (steps : List Step) (values : List Value) (resolved : Memory) :
    run env options ⟨.steps steps cell :: rest, values, resolved, resolving, depth⟩ =
      (Step.inquiryAll options steps values).run (retrieve env options levels path) resolved >>=
        fun p => run env options ⟨.steps [] cell :: rest, p.1, p.2, resolving, depth⟩ := by
  induction steps generalizing values resolved with
  | nil => rfl
  | cons step todo ih =>
    rw [run_cons rfl, proceed, Step.inquiryAll]
    cases step with
    | push v =>
      rw [Step.inquiry, pure_bind]
      exact ih (v :: values) resolved
    | load name =>
      rw [Step.inquiry, Inquiry.ask_bind, Inquiry.run_ask, bind_assoc]
      refine (h _ _ _ _ path name htracks).trans ?_
      exact congrArg (_ >>= ·) (funext fun p => ih (p.1 :: values) p.2)
    | range start stop =>
      rw [perform, enterRange_eq_map, Step.inquiry, rangeInquiry]
      cases options.rangeBetween start stop with
      | error e => rfl
      | ok r =>
        simp only [Inquiry.done_ok_bind, bind_assoc, pure_bind, Inquiry.run_bind]
        have hwalk := run_range h htracks (.steps todo cell :: rest) values [] resolved r.cursor
        rw [Range.cursor_ahead] at hwalk
        refine hwalk.trans ?_
        exact congrArg (_ >>= ·) (funext fun p => ih (.list p.1 :: values) p.2)
    | apply operation count =>
      rw [perform, replaceTop_eq_map, Step.inquiry]
      dsimp only
      cases Step.replaceTop count operation.apply values with
      | error e => rfl
      | ok values => exact ih values resolved

/-! ## All levels -/

theorem load_of_settled {s : State} {name : String} {v : Value}
    (htracks : Tracks env options path s.resolving) (h : Settled env s.resolved name v) :
    s.load env options name = .ok (s.push v) := by
  unfold load
  rcases h with hmemory | ⟨hmemory, hplain⟩
  · rw [hmemory]
  · have hpath : name ∉ path := fun hmem => by
      rw [htracks.formula name hmem] at hplain
      cases hplain
    rw [hmemory]
    dsimp only
    rw [if_neg (by simp [htracks.contains, hpath])]
    rcases Environment.plain?_eq_some.1 hplain with ⟨henv, rfl⟩ | henv
    · rw [henv]
    · rw [henv]

theorem load_of_unresolved {s : State} {name text : String}
    (htracks : Tracks env options path s.resolving) (h : Unresolved env s.resolved name text) :
    s.load env options name =
      if options.detectCycles = true ∧ name ∈ path then .error (.circularReference name)
      else if s.depth < options.maxReferences then do
        let e ← Expr.ofFormula text options.maxNesting
        return s.enter options name (← e.steps)
      else .error (.evaluation (.chainTooDeep name options.maxReferences)) := by
  rw [load, h.fresh, h.formula]
  dsimp only
  rw [htracks.contains name]
  exact if_congr (by simp) rfl rfl

theorem compare_beq_eq (name other : String) :
    (compare name other == .eq) = decide (name = other) := by
  rw [Bool.beq_eq_decide_eq]
  exact decide_eq_decide.2 Std.LawfulEqCmp.compare_eq_iff_eq

/-- One more cell on the path is one more cell that is being resolved. -/
theorem Tracks.enter {name text : String} {resolved : Memory}
    (htracks : Tracks env options path resolving) (h : Unresolved env resolved name text) :
    Tracks env options (name :: path)
      (if options.detectCycles then resolving.insert name else resolving) where
  contains other := by
    cases hdetect : options.detectCycles with
    | false => simpa [hdetect] using htracks.contains other
    | true =>
      have hpath := htracks.contains other
      rw [hdetect, Bool.true_and] at hpath
      rw [if_pos rfl, Std.TreeSet.contains_insert, hpath, compare_beq_eq, Bool.true_and,
        List.contains_cons]
      by_cases hother : name = other
      · simp [hother]
      · simp [hother, Ne.symm hother]
  formula other hother := by
    rcases List.mem_cons.1 hother with rfl | hmem
    · simp [Environment.plain?, h.formula]
    · exact htracks.formula other hmem

/-- When a cell has been resolved, the machine goes on as if it had not been entered. -/
theorem run_leave {name : String} {v : Value} {values : List Value} {frames : List Frame}
    {resolved : Memory} (htracks : Tracks env options path resolving)
    (hpath : options.detectCycles = true → name ∉ path) :
    run env options ⟨.steps [] (some name) :: frames, v :: values, resolved,
        if options.detectCycles then resolving.insert name else resolving, depth + 1⟩ =
      run env options ⟨frames, v :: values, resolved.insert name v, resolving, depth⟩ := by
  rw [run_cons rfl]
  refine run_congr ⟨rfl, rfl, rfl, rfl, fun other => ?_⟩
  have hname : resolving.contains name = false := by
    rw [htracks.contains name]
    simpa using hpath
  simp only [leave, Std.TreeSet.contains_erase, bne, compare_beq_eq]
  by_cases hother : name = other
  · subst hother
    simp [hname]
  · cases options.detectCycles with
    | false => simp [hother]
    | true =>
      rw [if_pos rfl, Std.TreeSet.contains_insert, compare_beq_eq]
      simp [hother]

/-- A formula cell that is entered is resolved by the recursion one level deeper. -/
theorem resume_enter {name text : String} {resolved : Memory}
    (h : LoadsByRetrieval env options levels (depth + 1))
    (htracks : Tracks env options path resolving) (hopen : Unresolved env resolved name text)
    (hpath : options.detectCycles = true → name ∉ path) (frames : List Frame)
    (values : List Value) :
    (resume env options do
      let e ← Expr.ofFormula text options.maxNesting
      let steps ← e.steps
      return enter ⟨frames, values, resolved, resolving, depth⟩ options name steps) =
      (formulaInquiry options text).run (retrieve env options levels (name :: path)) resolved >>=
        fun p =>
          run env options ⟨frames, p.1 :: values, p.2.insert name p.1, resolving, depth⟩ := by
  rw [formulaInquiry]
  cases Expr.ofFormula text options.maxNesting with
  | error e => rfl
  | ok e =>
    rw [Inquiry.done_ok_bind, Expr.checkedInquiry, ← Expr.steps_map_unit]
    change resume env options (e.steps >>= fun steps => _) = _
    cases hsteps : e.steps with
    | error err => rfl
    | ok steps =>
      have hrun := run_steps h (htracks.enter hopen) (some name) frames steps values resolved
      rw [Expr.inquiryAll_steps options e hsteps values, Inquiry.run_bind, bind_assoc] at hrun
      refine hrun.trans ?_
      exact congrArg (_ >>= ·) (funext fun p => run_leave htracks hpath)

/-- On every level, loading a cell is what the recursion does; by induction on the levels that are
left below the limit. -/
theorem loadsByRetrieval (levels depth : Nat) (hlevels : options.maxReferences - depth = levels) :
    LoadsByRetrieval env options levels depth := by
  induction levels generalizing depth with
  | zero =>
    intro frames values resolved resolving path name htracks
    rcases settled_or_unresolved env resolved name with ⟨v, hsettled⟩ | ⟨text, hopen⟩
    · rw [load_of_settled (by exact htracks) hsettled, retrieve_of_settled hsettled]
      rfl
    · rw [load_of_unresolved (by exact htracks) hopen]
      by_cases hpath : options.detectCycles = true ∧ name ∈ path
      · rw [retrieve_of_mem_path hpath.1 hopen hpath.2, if_pos hpath]
        rfl
      · rw [retrieve_zero_of_unresolved hopen fun hdetect hmem => hpath ⟨hdetect, hmem⟩,
          if_neg hpath, if_neg (by dsimp only; omega)]
        rfl
  | succ levels ih =>
    intro frames values resolved resolving path name htracks
    rcases settled_or_unresolved env resolved name with ⟨v, hsettled⟩ | ⟨text, hopen⟩
    · rw [load_of_settled (by exact htracks) hsettled, retrieve_of_settled hsettled]
      rfl
    · rw [load_of_unresolved (by exact htracks) hopen]
      by_cases hpath : options.detectCycles = true ∧ name ∈ path
      · rw [retrieve_of_mem_path hpath.1 hopen hpath.2, if_pos hpath]
        rfl
      · have hfresh : options.detectCycles = true → name ∉ path :=
          fun hdetect hmem => hpath ⟨hdetect, hmem⟩
        rw [retrieve_succ_of_unresolved hopen hfresh, if_neg hpath,
          if_pos (by dsimp only; omega), bind_assoc]
        exact resume_enter (ih (depth + 1) (by omega)) htracks hopen hfresh frames values

theorem tracks_nil (env : Environment) (options : Options) : Tracks env options [] ∅ where
  contains name := by simp
  formula name h := by cases h

end Spreadsheet.Evaluation.State

namespace Spreadsheet

open Evaluation

/-- Evaluating an expression is the recursion, from an empty path and an empty memory. -/
theorem Expr.evaluate_eq_retrieve (env : Environment) (options : Options) (e : Expr) :
    e.evaluate env options =
      ((e.checkedInquiry options).run (retrieve env options options.maxReferences []) ∅).map
        Prod.fst := by
  rw [evaluate, checkedInquiry, ← steps_map_unit]
  cases hsteps : e.steps with
  | error err => rfl
  | ok steps =>
    have hload : State.LoadsByRetrieval env options options.maxReferences 0 :=
      State.loadsByRetrieval options.maxReferences 0 rfl
    have hrun := State.run_steps hload (State.tracks_nil env options) none [] steps [] ∅
    rw [inquiryAll_steps options e hsteps [], Inquiry.run_bind, bind_assoc] at hrun
    refine hrun.trans ?_
    change ((e.inquiry options).run _ ∅ >>= _) = ((e.inquiry options).run _ ∅).map Prod.fst
    cases (e.inquiry options).run (retrieve env options options.maxReferences []) ∅ with
    | error err => rfl
    | ok p =>
      change State.run env options _ = _
      rw [State.run_cons rfl]
      exact State.run_nil _ rfl

/-- Evaluating a formula text is the recursion, from an empty path and an empty memory. -/
theorem evaluateFormula_eq_retrieve (env : Environment) (options : Options) (text : String) :
    evaluateFormula env options text =
      ((formulaInquiry options text).run (retrieve env options options.maxReferences []) ∅).map
        Prod.fst := by
  rw [evaluateFormula, formulaInquiry]
  cases Expr.ofFormula text options.maxNesting with
  | error e => rfl
  | ok e => exact e.evaluate_eq_retrieve env options

/-- A formula that has a value has it from the recursion. -/
theorem run_of_evaluateFormula_eq_ok {env : Environment} {options : Options} {text : String}
    {v : Value} (h : evaluateFormula env options text = .ok v) :
    ∃ memory, (formulaInquiry options text).run (retrieve env options options.maxReferences []) ∅ =
      .ok (v, memory) := by
  rw [evaluateFormula_eq_retrieve] at h
  cases hrun : (formulaInquiry options text).run (retrieve env options options.maxReferences []) ∅
    with
  | error e =>
    rw [hrun] at h
    cases h
  | ok p =>
    rw [hrun] at h
    cases h
    exact ⟨p.2, rfl⟩

/-- A formula that fails does so in the recursion. -/
theorem run_of_evaluateFormula_eq_error {env : Environment} {options : Options} {text : String}
    {e : FormulaError} (h : evaluateFormula env options text = .error e) :
    (formulaInquiry options text).run (retrieve env options options.maxReferences []) ∅ =
      .error e := by
  rw [evaluateFormula_eq_retrieve] at h
  cases hrun : (formulaInquiry options text).run (retrieve env options options.maxReferences []) ∅
    with
  | error e =>
    rw [hrun] at h
    cases h
    rfl
  | ok p =>
    rw [hrun] at h
    cases h

/-- The value of a cell is what the recursion loads. -/
theorem evaluateCell_eq_retrieve (env : Environment) (options : Options) (name : String) :
    evaluateCell env options name =
      (retrieve env options options.maxReferences [] (canonicalName name) ∅).map Prod.fst := by
  have hreference := Expr.evaluate_eq_retrieve env options (.reference name)
  refine hreference.trans ?_
  change (retrieve env options options.maxReferences [] (canonicalName name) ∅ >>= _).map _ = _
  cases retrieve env options options.maxReferences [] (canonicalName name) ∅ <;> rfl

end Spreadsheet
