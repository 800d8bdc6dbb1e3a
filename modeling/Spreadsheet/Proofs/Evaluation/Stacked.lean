import Spreadsheet.Proofs.Evaluation.InternalErrors
import Spreadsheet.Proofs.Evaluation.Values

/-!
# The discipline of the stack

The frames of the machine divide the stack among themselves. The top of it is what the innermost
frame has put there, and what that frame still does will leave exactly one value in its place: for a
formula cell the value of the cell, for a range the list of the values of its cells. The frame
behind it goes on with this value, and so on to the last one. So whatever is taken off the stack is
what the steps of the same frame have put on it, and the members of a list are values of cells.

## Main results

* `Inquiry.ensures_bind`: what an inquiry ensures in parts.
* `State.Disciplined.moves`: every move keeps the discipline.
* `State.stacked_collect`: what a range collects are values of cells.
-/

namespace Spreadsheet

namespace Inquiry

variable {α β : Type} {value : String → Value → Prop} {E : FormulaError → Prop}

/-- Whatever the values of the cells are, a result and an error have certain properties. -/
def Ensures (value : String → Value → Prop) (E : FormulaError → Prop) (Q : α → Prop) :
    Inquiry α → Prop
  | .done (.ok a) => Q a
  | .done (.error e) => E e
  | .ask name next => ∀ v, value name v → (next v).Ensures value E Q

/-- The second part of an inquiry says what the first one has to ensure. -/
theorem ensures_bind {i : Inquiry α} {f : α → Inquiry β} {Q : β → Prop} :
    (i >>= f).Ensures value E Q ↔ i.Ensures value E fun a => (f a).Ensures value E Q := by
  induction i with
  | done r => cases r <;> rfl
  | ask name next ih => exact forall_congr' fun v => imp_congr_right fun _ => ih v

theorem Ensures.mono {i : Inquiry α} {P Q : α → Prop} (h : i.Ensures value E P)
    (hPQ : ∀ a, P a → Q a) : i.Ensures value E Q := by
  induction i with
  | done r =>
    cases r with
    | ok a => exact hPQ a h
    | error e => exact h
  | ask name next ih => exact fun v hv => ih v (h v hv)

/-- An inquiry ensures what holds of everything that it can come to. -/
theorem ensures_of_comesTo {i : Inquiry α} {Q : α → Prop} (hfails : i.FailsOnly E)
    (hcomes : ∀ a, i.ComesTo value a → Q a) : i.Ensures value E Q := by
  induction i with
  | done r =>
    cases r with
    | ok a => exact hcomes a rfl
    | error e => exact hfails e rfl
  | ask name next ih => exact fun v hv => ih v (hfails v) fun a ha => hcomes a ⟨v, hv, ha⟩

end Inquiry

/-- A formula cell has the value that its formula comes to from the values of cells. -/
theorem Environment.hasValue_of_formula {env : Environment} {options : Options}
    {name text : String} {v : Value} (henv : env name = some (.formula text))
    (h : (formulaInquiry options text).ComesTo (env.HasValue options) v) :
    env.HasValue options name v := by
  obtain ⟨n, hn⟩ := exists_comesTo h
  exact ⟨n + 1, .inr ⟨text, henv, hn⟩⟩

/-- A text whose tree has steps asks what the tree asks. -/
theorem formulaInquiry_eq {options : Options} {text : String} {e : Expr} {steps : List Step}
    (he : Expr.ofFormula text options.maxNesting = .ok e) (hsteps : e.steps = .ok steps) :
    formulaInquiry options text = e.inquiry options := by
  rw [formulaInquiry, he, Inquiry.done_ok_bind, Expr.checkedInquiry, ← Expr.steps_map_unit, hsteps]
  rfl

namespace Evaluation

/-! ## Frames and their part of the stack -/

/-- The error of steps that take more values than there are. -/
def Supplied (e : FormulaError) : Prop :=
  e ≠ .evaluation .tooFewOperands

/-- The stack is divided among the frames. The innermost one has put `own` on it, and will leave one
value there, with which the frames that it has interrupted go on. -/
def Stacked (env : Environment) (options : Options) : List Frame → List Value → Prop
  | [], values => ∃ v, values = [v]
  | .steps todo cell :: rest, values =>
    ∃ own below, values = own ++ below ∧
      (Step.inquiryAll options todo own).Ensures (env.HasValue options) Supplied fun left =>
        ∃ v, left = [v] ∧ (∀ name, cell = some name → env.HasValue options name v) ∧
          Stacked env options rest (v :: below)
  | .range cursor loaded :: rest, values =>
    ∃ own below, values = own ++ below ∧ own.length = loaded ∧
      (∀ v ∈ own, ∃ name, env.HasValue options name v) ∧
      (Inquiry.askAll (cursor.ahead.map Position.name)).Ensures (env.HasValue options) Supplied
        fun items => Stacked env options rest (.list (own.reverse ++ items) :: below)

variable {env : Environment} {options : Options}

theorem takeTop_append {count : Nat} {own taken args left : List Value}
    (h : takeTop count own taken = some (args, left)) (below : List Value) :
    takeTop count (own ++ below) taken = some (args, left ++ below) := by
  fun_induction takeTop count own taken with
  | case1 stack taken =>
    cases h
    rfl
  | case2 n v stack taken ih => exact ih h
  | case3 => cases h

/-- A frame goes on with the value of the cell that it has asked for. -/
theorem Stacked.answer {name : String} {before after : List Frame} {values : List Value} {v : Value}
    (h : Stacked env options before values) (hasks : Frame.Asks name before after)
    (hv : env.HasValue options name v) : Stacked env options after (v :: values) := by
  cases hasks with
  | step todo cell rest =>
    obtain ⟨own, below, rfl, hown⟩ := h
    exact ⟨v :: own, below, rfl, hown v hv⟩
  | @member cursor loaded rest hmore hname =>
    obtain ⟨own, below, rfl, hlength, hvalues, hahead⟩ := h
    rw [Range.Cursor.ahead_of_remaining_ne_zero hmore, List.map_cons, hname] at hahead
    refine ⟨v :: own, below, rfl, congrArg (· + 1) hlength,
      List.forall_mem_cons.2 ⟨⟨name, hv⟩, hvalues⟩, ?_⟩
    refine (Inquiry.ensures_bind.1 (hahead v hv)).mono fun items hitems => ?_
    rw [List.reverse_cons, List.append_assoc]
    exact hitems

/-- The steps of an expression leave its value. -/
theorem ensures_steps {e : Expr} {steps : List Step} (hsteps : e.steps = .ok steps)
    {Q : Value → Prop} (h : ∀ v, (e.inquiry options).ComesTo (env.HasValue options) v → Q v) :
    (Step.inquiryAll options steps []).Ensures (env.HasValue options) Supplied fun left =>
      ∃ v, left = [v] ∧ Q v := by
  rw [Expr.inquiryAll_steps options e hsteps []]
  refine Inquiry.ensures_bind.2 (Inquiry.ensures_of_comesTo ?_ fun v hv => ⟨v, rfl, h v hv⟩)
  exact (e.failsOnly_inquiry options).mono fun _ herror => herror.own.not_of_steps.1

namespace State

variable {s t : State}

/-- The stack is divided among the frames, and what is remembered are values of cells. -/
structure Disciplined (env : Environment) (options : Options) (s : State) : Prop where
  stacked : Stacked env options s.frames s.values
  valued : Valued env options s.resolved

theorem disciplined_start {e : Expr} {steps : List Step} (hsteps : e.steps = .ok steps) :
    Disciplined env options (start steps) where
  stacked := by
    refine ⟨[], [], rfl, (ensures_steps hsteps fun _ _ => trivial).mono ?_⟩
    rintro left ⟨v, rfl, -⟩
    exact ⟨v, rfl, (fun _ hname => by cases hname), v, rfl⟩
  valued := valued_empty

/-- An operation takes its operands from what the steps of its frame have put on the stack. -/
theorem stacked_apply {operation : Operation} {count : Nat} {todo : List Step}
    {cell : Option String} {rest : List Frame} {values args left : List Value} {v : Value}
    (h : Stacked env options (.steps (.apply operation count :: todo) cell :: rest) values)
    (htake : takeTop count values [] = some (args, left)) (hv : operation.apply args = .ok v) :
    Stacked env options (.steps todo cell :: rest) (v :: left) := by
  obtain ⟨own, below, rfl, hown⟩ := h
  rw [Step.inquiryAll, Inquiry.ensures_bind, Step.inquiry, Step.replaceTop] at hown
  cases hsupply : takeTop count own [] with
  | none =>
    rw [hsupply] at hown
    exact absurd rfl hown
  | some p =>
    rw [takeTop_append hsupply below] at htake
    cases htake
    rw [hsupply] at hown
    dsimp only at hown
    rw [hv] at hown
    exact ⟨v :: p.2, below, rfl, hown⟩

theorem stacked_range {start stop : String} {todo : List Step} {cell : Option String}
    {rest : List Frame} {values : List Value} {r : Range}
    (h : Stacked env options (.steps (.range start stop :: todo) cell :: rest) values)
    (hr : options.rangeBetween start stop = .ok r) :
    Stacked env options (.range r.cursor 0 :: .steps todo cell :: rest) values := by
  obtain ⟨own, below, rfl, hown⟩ := h
  refine ⟨[], own ++ below, rfl, rfl, fun v hv => (List.not_mem_nil hv).elim, ?_⟩
  rw [Step.inquiryAll, Step.inquiry, rangeInquiry, hr, Inquiry.done_ok_bind, bind_assoc,
    bind_assoc, Inquiry.ensures_bind] at hown
  rw [Range.cursor_ahead]
  refine hown.mono fun items hitems => ?_
  exact ⟨.list items :: own, below, rfl, hitems⟩

/-- The values of the cells of a range are on the top of the stack when they are collected. -/
theorem stacked_collect {cursor : Range.Cursor} {loaded : Nat} {rest : List Frame}
    {values items left : List Value}
    (h : Stacked env options (.range cursor loaded :: rest) values)
    (hdone : cursor.remaining = 0) (htake : takeTop loaded values [] = some (items, left)) :
    (∀ v ∈ items, ∃ name, env.HasValue options name v) ∧
      Stacked env options rest (.list items :: left) := by
  obtain ⟨own, below, rfl, rfl, hvalues, hahead⟩ := h
  rw [Range.Cursor.ahead_of_remaining_eq_zero hdone] at hahead
  have hown := takeTop_reverse_append own.reverse below []
  rw [List.length_reverse, List.reverse_reverse, htake, List.append_nil] at hown
  cases hown
  refine ⟨fun v hv => hvalues v (List.mem_reverse.1 hv), ?_⟩
  have hleft : Stacked env options rest (.list (own.reverse ++ []) :: left) := hahead
  rwa [List.append_nil] at hleft

/-- Every move keeps the discipline. -/
theorem Disciplined.moves (hs : s.Disciplined env options) (h : Moves env options s t) :
    t.Disciplined env options := by
  have hstacked : Stacked env options s.frames s.values := hs.stacked
  cases h with
  | @leave cell rest h =>
    rw [h] at hstacked
    obtain ⟨own, below, hvalues, v, hown, hcell, hrest⟩ := hstacked
    have htop : s.values = v :: below := by rw [hvalues, hown]; rfl
    rw [← htop] at hrest
    cases cell with
    | none => exact ⟨hrest, hs.valued⟩
    | some name =>
      refine ⟨hrest, ?_⟩
      have hname : env.HasValue options name (s.values.head?.getD .empty) := by
        rw [htop]
        exact hcell name rfl
      exact hs.valued.insert hname
  | push h =>
    rw [h] at hstacked
    obtain ⟨own, below, hvalues, hown⟩ := hstacked
    exact ⟨⟨_ :: own, below, congrArg (_ :: ·) hvalues, hown⟩, hs.valued⟩
  | apply h htake hv =>
    rw [h] at hstacked
    exact ⟨stacked_apply hstacked htake hv, hs.valued⟩
  | range h hr =>
    rw [h] at hstacked
    exact ⟨stacked_range hstacked hr, hs.valued⟩
  | collect h hdone htake =>
    rw [h] at hstacked
    exact ⟨(stacked_collect hstacked hdone htake).2, hs.valued⟩
  | load hasks hv => exact ⟨hstacked.answer hasks (hv.hasValue hs.valued), hs.valued⟩
  | @enter name text frames e steps hasks hopen _ _ he hsteps =>
    have hformula : ∀ v, (e.inquiry options).ComesTo (env.HasValue options) v →
        env.HasValue options name v := fun v hv =>
      Environment.hasValue_of_formula hopen.formula ((formulaInquiry_eq he hsteps).symm ▸ hv)
    refine ⟨⟨[], s.values, rfl, (ensures_steps hsteps hformula).mono ?_⟩, hs.valued⟩
    rintro left ⟨v, rfl, hv⟩
    refine ⟨v, rfl, fun other hother => ?_, hstacked.answer hasks hv⟩
    cases hother
    exact hv

theorem disciplined_of_reaches {e : Expr} {steps : List Step} (hsteps : e.steps = .ok steps)
    (h : Reaches env options (start steps) s) : s.Disciplined env options :=
  h.invariant (disciplined_start hsteps) fun _ _ _ => Disciplined.moves

end State

end Evaluation

end Spreadsheet
