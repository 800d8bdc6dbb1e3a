import Spreadsheet.Evaluation.Machine

/-!
# Inquiries

What an expression needs from the rest of the sheet is the values of cells, one after the other, and
nothing else. An inquiry is a computation seen in this way: it either has a result or asks for the
value of a cell and goes on with the answer. Where the answers come from is left open, so that the
machine with its memory and an evaluation without any can be compared question by question.

## Main results

* `run_bind`: with a memory, the parts of an inquiry are answered one after the other.
* `mayAsk_bind`: the questions of an inquiry are those of its parts.
* `run_congr`: ways of answering that agree on its questions give an inquiry the same result.
* `mustAsk_bind_left`, `mustAsk_bind_right`: what a part has to ask, the whole has to ask.
-/

namespace Spreadsheet

/-- The values of the formula cells that have been resolved. -/
abbrev Memory := Std.TreeMap String Value

/-- Says what the value of a cell is, and what is remembered afterwards. -/
abbrev Loader := String → Memory → Except FormulaError (Value × Memory)

/-- A computation that asks for the values of cells. -/
inductive Inquiry (α : Type)
  | done (result : Except FormulaError α)
  | ask (name : String) (next : Value → Inquiry α)

namespace Inquiry

variable {α β : Type}

/-- Goes on with the result of an inquiry; an error ends the whole. -/
def andThen (f : α → Inquiry β) : Inquiry α → Inquiry β
  | .done (.ok a) => f a
  | .done (.error e) => .done (.error e)
  | .ask name next => .ask name fun v => (next v).andThen f

instance : Monad Inquiry where
  pure a := .done (.ok a)
  bind i f := i.andThen f

@[simp] theorem done_ok_bind (a : α) (f : α → Inquiry β) : (done (.ok a) >>= f) = f a := rfl

@[simp] theorem done_error_bind (e : FormulaError) (f : α → Inquiry β) :
    (done (.error e) >>= f) = done (.error e) := rfl

@[simp] theorem ask_bind (name : String) (next : Value → Inquiry α) (f : α → Inquiry β) :
    (ask name next >>= f) = ask name fun v => next v >>= f := rfl

instance : LawfulMonad Inquiry := LawfulMonad.mk' Inquiry
  (by
    intro α i
    change i.andThen (fun a => .done (.ok a)) = i
    induction i with
    | done r => cases r <;> rfl
    | ask name next ih => exact congrArg (ask name) (funext ih))
  (by intros; rfl)
  (by
    intro α β γ i f g
    change (i.andThen f).andThen g = i.andThen fun a => (f a).andThen g
    induction i with
    | done r => cases r <;> rfl
    | ask name next ih => exact congrArg (ask name) (funext ih))

/-- Asks for several cells, one after the other. -/
def askAll : List String → Inquiry (List Value)
  | [] => pure []
  | name :: rest => .ask name fun v => do return v :: (← askAll rest)

/-! ## Answers from a memory -/

/-- Answers the questions of an inquiry one after the other, beginning with a memory. -/
def run (load : Loader) : Inquiry α → Memory → Except FormulaError (α × Memory)
  | .done r, memory => do return (← r, memory)
  | .ask name next, memory => do
    let (v, memory) ← load name memory
    (next v).run load memory

variable {load : Loader} {memory : Memory}

@[simp] theorem run_done_ok (a : α) : (done (.ok a)).run load memory = .ok (a, memory) := rfl

@[simp] theorem run_done_error (e : FormulaError) :
    (done (.error e) : Inquiry α).run load memory = .error e := rfl

@[simp] theorem run_pure (a : α) : (pure a : Inquiry α).run load memory = .ok (a, memory) := rfl

theorem run_ask (name : String) (next : Value → Inquiry α) :
    (ask name next).run load memory =
      load name memory >>= fun p => (next p.1).run load p.2 := rfl

/-- With a memory, the parts of an inquiry are answered one after the other. -/
theorem run_bind (i : Inquiry α) (f : α → Inquiry β) :
    (i >>= f).run load memory = i.run load memory >>= fun p => (f p.1).run load p.2 := by
  induction i generalizing memory with
  | done r => cases r <;> rfl
  | ask name next ih =>
    rw [ask_bind, run_ask, run_ask]
    cases load name memory with
    | error e => rfl
    | ok p => exact ih p.1

/-- A question that was followed by success was answered. -/
theorem run_ask_eq_ok {name : String} {next : Value → Inquiry α} {p : α × Memory}
    (h : (ask name next).run load memory = .ok p) :
    ∃ v between, load name memory = .ok (v, between) ∧ (next v).run load between = .ok p := by
  rw [run_ask] at h
  cases hload : load name memory with
  | error e => rw [hload] at h; cases h
  | ok q => exact ⟨q.1, q.2, rfl, by rw [hload] at h; exact h⟩

/-- An error after a question comes from the answer or from what follows it. -/
theorem run_ask_eq_error {name : String} {next : Value → Inquiry α} {e : FormulaError}
    (h : (ask name next).run load memory = .error e) :
    load name memory = .error e ∨
      ∃ v between, load name memory = .ok (v, between) ∧
        (next v).run load between = .error e := by
  rw [run_ask] at h
  cases hload : load name memory with
  | error f =>
    rw [hload] at h
    cases h
    exact .inl rfl
  | ok q =>
    rw [hload] at h
    exact .inr ⟨q.1, q.2, rfl, h⟩

/-! ## Questions -/

/-- A cell that is asked for after some answers. -/
inductive MayAsk (name : String) : Inquiry α → Prop
  | here (next : Value → Inquiry α) : MayAsk name (.ask name next)
  | later {other : String} {next : Value → Inquiry α} {v : Value} (h : MayAsk name (next v)) :
    MayAsk name (.ask other next)

/-- A cell without whose value an inquiry has no result. -/
def MustAsk (name : String) : Inquiry α → Prop
  | .done (.ok _) => False
  | .done (.error _) => True
  | .ask other next => other = name ∨ ∀ v, (next v).MustAsk name

/-- The questions of an inquiry in parts are those of the parts. -/
theorem mayAsk_bind {name : String} {i : Inquiry α} {f : α → Inquiry β}
    (h : MayAsk name (i >>= f)) : MayAsk name i ∨ ∃ a, MayAsk name (f a) := by
  induction i with
  | done r =>
    cases r with
    | ok a => exact .inr ⟨a, h⟩
    | error e => cases h
  | ask other next ih =>
    cases h with
    | here => exact .inl (.here _)
    | later hlater =>
      rcases ih _ hlater with hleft | hright
      · exact .inl (.later hleft)
      · exact .inr hright

/-- Only the answers to the questions of an inquiry matter. -/
theorem run_congr {load load' : Loader} {i : Inquiry α}
    (h : ∀ name, i.MayAsk name → ∀ memory, load' name memory = load name memory)
    (memory : Memory) : i.run load' memory = i.run load memory := by
  induction i generalizing memory with
  | done r => rfl
  | ask name next ih =>
    rw [run_ask, run_ask, h name (.here next)]
    refine congrArg (load name memory >>= ·) (funext fun p => ?_)
    exact ih p.1 (fun other hother => h other (.later hother)) p.2

theorem mustAsk_bind_left {name : String} {i : Inquiry α} (f : α → Inquiry β)
    (h : i.MustAsk name) : (i >>= f).MustAsk name := by
  induction i with
  | done r =>
    cases r with
    | ok a => exact h.elim
    | error e => trivial
  | ask other next ih => exact h.imp id fun hnext v => ih v (hnext v)

theorem mustAsk_bind_right {name : String} {i : Inquiry α} {f : α → Inquiry β}
    (h : ∀ a, (f a).MustAsk name) : (i >>= f).MustAsk name := by
  induction i with
  | done r =>
    cases r with
    | ok a => exact h a
    | error e => trivial
  | ask other next ih => exact .inr ih

theorem mayAsk_askAll {name : String} {names : List String} (h : MayAsk name (askAll names)) :
    name ∈ names := by
  induction names with
  | nil => cases h
  | cons first rest ih =>
    cases h with
    | here => simp
    | later hlater =>
      rcases mayAsk_bind hlater with hrest | ⟨vs, hdone⟩
      · exact List.mem_cons_of_mem _ (ih hrest)
      · cases hdone

theorem mustAsk_askAll {name : String} {names : List String} (h : name ∈ names) :
    (askAll names).MustAsk name := by
  induction names with
  | nil => cases h
  | cons first rest ih =>
    rcases List.mem_cons.1 h with rfl | hrest
    · exact .inl rfl
    · exact .inr fun v => mustAsk_bind_left _ (ih hrest)

/-! ## Results -/

/-- Whatever the answers are, a result has a property. -/
def Yields (P : α → Prop) : Inquiry α → Prop
  | .done (.ok a) => P a
  | .done (.error _) => True
  | .ask _ next => ∀ v, (next v).Yields P

theorem yields_true (i : Inquiry α) : i.Yields fun _ => True := by
  induction i with
  | done r => cases r <;> trivial
  | ask name next ih => exact ih

theorem yields_bind {P : α → Prop} {Q : β → Prop} {i : Inquiry α} {f : α → Inquiry β}
    (hi : i.Yields P) (hf : ∀ a, P a → (f a).Yields Q) : (i >>= f).Yields Q := by
  induction i with
  | done r =>
    cases r with
    | ok a => exact hf a hi
    | error e => trivial
  | ask name next ih => exact fun v => ih v (hi v)

/-- Continuations matter only for the results that are possible. -/
theorem bind_congr_of_yields {P : α → Prop} {i : Inquiry α} {f g : α → Inquiry β}
    (hi : i.Yields P) (h : ∀ a, P a → f a = g a) : (i >>= f) = (i >>= g) := by
  induction i with
  | done r =>
    cases r with
    | ok a => exact h a hi
    | error e => rfl
  | ask name next ih => exact congrArg (ask name) (funext fun v => ih v (hi v))

end Inquiry

end Spreadsheet
