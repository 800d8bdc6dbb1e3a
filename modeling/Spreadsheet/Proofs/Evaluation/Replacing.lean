import Spreadsheet.Proofs.Evaluation.Limits
import Spreadsheet.Proofs.Evaluation.Values

/-!
# Values in the place of formulas

A cell that has a value may hold that value instead of the formula that gives it: no cell has more
values after that, and none has fewer. A cell without a value is one that was not replaced, so it
fails as it did before. What an evaluation remembers may differ, for it no longer comes by the cells
that the formula referred to; but whatever is remembered is a value of its cell, on either sheet.

## Main results

* `hasValue_iff_of_replaces`: the cells have the same values as before.
* `sameOutcome_retrieve`: the recursion comes to the same value or the same error.
* `evaluateFormula_eq_of_replaces`: so does a formula, if there is room for all formula cells.
-/

namespace Spreadsheet

/-- A sheet in which some cells hold their values instead of the formulas that give them. -/
def Environment.Replaces (env other : Environment) (options : Options) : Prop :=
  ∀ name, other name = env name ∨
    ∃ v, env.HasValue options name v ∧ other name = some (.value v)

namespace Environment

variable {env other : Environment} {options : Options} {n : Nat} {name : String} {v : Value}

/-- A value of a cell is not lost; by induction on the levels, since the formulas that are left ask
for cells whose values are not lost. -/
theorem HasWithin.of_replaces (h : env.HasWithin options n name v)
    (hreplaces : env.Replaces other options) : other.HasWithin options n name v := by
  induction n generalizing name v with
  | zero =>
    rcases hreplaces name with hsame | ⟨w, hw, hother⟩
    · rwa [HasWithin, Evaluation.plain?_congr hsame]
    · rw [hw.unique ⟨0, h⟩] at hother
      exact Environment.plain?_eq_some.2 (.inr hother)
  | succ n ih =>
    rcases h with hless | ⟨text, henv, hformula⟩
    · exact .inl (ih hless)
    · rcases hreplaces name with hsame | ⟨w, hw, hother⟩
      · exact .inr ⟨text, hsame.trans henv, hformula.mono fun _ _ hcell => ih hcell⟩
      · rw [hw.unique ⟨n + 1, .inr ⟨text, henv, hformula⟩⟩] at hother
        exact hasWithin_of_plain (Environment.plain?_eq_some.2 (.inr hother))

/-- And none is added. -/
theorem HasWithin.hasValue_of_replaces (h : other.HasWithin options n name v)
    (hreplaces : env.Replaces other options) : env.HasValue options name v := by
  induction n generalizing name v with
  | zero =>
    rcases hreplaces name with hsame | ⟨w, hw, hother⟩
    · rw [HasWithin, Evaluation.plain?_congr hsame] at h
      exact ⟨0, h⟩
    · rw [h.eq_of_plain (Environment.plain?_eq_some.2 (.inr hother))]
      exact hw
  | succ n ih =>
    rcases h with hless | ⟨text, hformula, hcomes⟩
    · exact ih hless
    · rcases hreplaces name with hsame | ⟨w, _, hother⟩
      · obtain ⟨m, hm⟩ := exists_comesTo (hcomes.mono fun _ _ hcell => ih hcell)
        exact ⟨m + 1, .inr ⟨text, hsame.symm.trans hformula, hm⟩⟩
      · rw [hother] at hformula
        cases hformula

/-- The cells have the same values as before. -/
theorem hasValue_iff_of_replaces (h : env.Replaces other options) :
    other.HasValue options name v ↔ env.HasValue options name v :=
  ⟨fun ⟨_, hv⟩ => hv.hasValue_of_replaces h, fun ⟨n, hv⟩ => ⟨n, hv.of_replaces h⟩⟩

theorem Replaces.refl (env : Environment) (options : Options) : env.Replaces env options :=
  fun _ => .inl rfl

/-- What is still a formula was the same formula before. -/
theorem Replaces.formula {text : String} (h : env.Replaces other options)
    (hname : other name = some (.formula text)) : env name = some (.formula text) := by
  rcases h name with hsame | ⟨_, _, hother⟩
  · exact hsame.symm.trans hname
  · rw [hother] at hname
    cases hname

end Environment

namespace Evaluation

open Forgetful (Room Covers)

variable {env other : Environment} {options : Options} {memory memory' : Memory} {levels : Nat}
  {path : List String} {name : String} {v : Value} {cells : Finset String} {α : Type}

theorem covers_of_replaces (h : Covers env options cells name)
    (hreplaces : env.Replaces other options) : Covers other options cells name := by
  intro last text hreached hformula
  have hmono : ∀ a b, other.Refers options a b → env.Refers options a b :=
    fun a b ⟨atext, ha, hmentioned⟩ => ⟨atext, hreplaces.formula ha, hmentioned⟩
  exact h last text (Relation.ReflTransGen.mono hmono name last hreached)
    (hreplaces.formula hformula)

/-- Where there is room for all formula cells, a value is found. -/
theorem retrieve_of_hasValue (detect : options.detectCycles = true)
    (hroom : Room cells levels path) (hcovers : Covers env options cells name)
    (hpath : ∀ cell ∈ path, ∀ w, ¬ env.HasValue options cell w)
    (hmemory : Valued env options memory) (hv : env.HasValue options name v) :
    ∃ later, retrieve env options levels path name memory = .ok (v, later) := by
  obtain ⟨n, hn⟩ := hv
  have hpath' : ∀ cell ∈ path, ∀ w, ¬ env.HasWithin options n cell w :=
    fun cell hcell w hw => hpath cell hcell w ⟨n, hw⟩
  rcases retrieve_of_hasWithin hn hmemory hpath' with hfound | ⟨_, cell, hdeep⟩
  · exact hfound
  · exact absurd ⟨cell, _, rfl⟩ (not_deep_of_room detect hroom hcovers hdeep)

/-! ## The same outcome -/

/-- Remembering the value of a cell does not change it. -/
theorem map_fst_remember (r : Except FormulaError (Value × Memory)) (name : String) :
    (r >>= fun p => .ok (p.1, p.2.insert name p.1)).map Prod.fst = r.map Prod.fst := by
  cases r <;> rfl

/-- Whatever values two evaluations remember, a cell comes to the same value or the same error. -/
def SameOutcome (env other : Environment) (options : Options) (load load' : Loader)
    (name : String) : Prop :=
  ∀ memory memory', Valued env options memory → Valued other options memory' →
    (load' name memory').map Prod.fst = (load name memory).map Prod.fst

/-- Loaders that agree on the outcomes of all questions agree on the outcome of the inquiry. -/
theorem map_run_eq {load load' : Loader} (hload : LoadsValues env options load)
    (hload' : LoadsValues other options load') {i : Inquiry α}
    (h : ∀ name, i.MayAsk name → SameOutcome env other options load load' name)
    (hmemory : Valued env options memory) (hmemory' : Valued other options memory') :
    (i.run load' memory').map Prod.fst = (i.run load memory).map Prod.fst := by
  induction i generalizing memory memory' with
  | done r => cases r <;> rfl
  | ask name next ih =>
    have hfirst := h name (.here next) memory memory' hmemory hmemory'
    rw [Inquiry.run_ask, Inquiry.run_ask]
    cases hvalue : load name memory with
    | error e =>
      cases hvalue' : load' name memory' with
      | error e' => rw [hvalue, hvalue'] at hfirst; cases hfirst; rfl
      | ok p' => rw [hvalue, hvalue'] at hfirst; cases hfirst
    | ok p =>
      cases hvalue' : load' name memory' with
      | error e' => rw [hvalue, hvalue'] at hfirst; cases hfirst
      | ok p' =>
        rw [hvalue, hvalue'] at hfirst
        have hsame : p'.1 = p.1 := Except.ok.inj hfirst
        obtain ⟨_, hlater⟩ := hload name p.1 memory p.2 hmemory hvalue
        obtain ⟨_, hlater'⟩ := hload' name p'.1 memory' p'.2 hmemory' hvalue'
        change ((next p'.1).run load' p'.2).map Prod.fst = ((next p.1).run load p.2).map Prod.fst
        rw [hsame]
        exact ih p.1 (fun last hlast => h last (.later hlast)) hlater hlater'

/-- A cell without a value holds the same formula on both sheets, and nothing is remembered for
it. -/
theorem unresolved_of_not_hasValue (hreplaces : env.Replaces other options)
    (hmemory : Valued env options memory) (hmemory' : Valued other options memory')
    (hnone : ∀ v, ¬ env.HasValue options name v) :
    ∃ text, Unresolved env memory name text ∧ Unresolved other memory' name text := by
  rcases settled_or_unresolved env memory name with ⟨v, hsettled⟩ | ⟨text, hopen⟩
  · exact absurd (hsettled.hasValue hmemory) (hnone v)
  rcases settled_or_unresolved other memory' name with ⟨v, hsettled⟩ | ⟨text', hopen'⟩
  · have hv : other.HasValue options name v := hsettled.hasValue hmemory'
    exact absurd ((Environment.hasValue_iff_of_replaces hreplaces).1 hv) (hnone v)
  have htext : text' = text := by
    have hformula := hreplaces.formula hopen'.formula
    rw [hopen.formula] at hformula
    cases hformula
    rfl
  exact ⟨text, hopen, htext ▸ hopen'⟩

/-- A cell that has a value comes to it on both sheets. -/
theorem sameOutcome_of_hasValue (detect : options.detectCycles = true)
    (hreplaces : env.Replaces other options) (hroom : Room cells levels path)
    (hcovers : Covers env options cells name)
    (hpath : ∀ cell ∈ path, ∀ w, ¬ env.HasValue options cell w)
    (hv : env.HasValue options name v) :
    SameOutcome env other options (retrieve env options levels path)
      (retrieve other options levels path) name := by
  intro memory memory' hmemory hmemory'
  have hiff : ∀ cell w, other.HasValue options cell w ↔ env.HasValue options cell w :=
    fun _ _ => Environment.hasValue_iff_of_replaces hreplaces
  have hpath' : ∀ cell ∈ path, ∀ w, ¬ other.HasValue options cell w :=
    fun cell hcell w hw => hpath cell hcell w ((hiff cell w).1 hw)
  have hcovers' : Covers other options cells name := covers_of_replaces hcovers hreplaces
  obtain ⟨later, hfound⟩ := retrieve_of_hasValue detect hroom hcovers hpath hmemory hv
  obtain ⟨later', hfound'⟩ :=
    retrieve_of_hasValue detect hroom hcovers' hpath' hmemory' ((hiff name v).2 hv)
  rw [hfound, hfound']
  rfl

/-- Only a cell without a value that is not on the path is resolved on either sheet. -/
theorem sameOutcome_of_unresolved (detect : options.detectCycles = true)
    (hreplaces : env.Replaces other options) (hroom : Room cells levels path)
    (hcovers : Covers env options cells name)
    (hpath : ∀ cell ∈ path, ∀ w, ¬ env.HasValue options cell w)
    (hresolve : ∀ text memory memory', Valued env options memory → Valued other options memory' →
      Unresolved env memory name text → Unresolved other memory' name text → name ∉ path →
      (∀ v, ¬ env.HasValue options name v) →
      (retrieve other options levels path name memory').map Prod.fst =
        (retrieve env options levels path name memory).map Prod.fst) :
    SameOutcome env other options (retrieve env options levels path)
      (retrieve other options levels path) name := by
  by_cases hv : ∃ v, env.HasValue options name v
  · obtain ⟨v, hv⟩ := hv
    exact sameOutcome_of_hasValue detect hreplaces hroom hcovers hpath hv
  · intro memory memory' hmemory hmemory'
    have hnone : ∀ v, ¬ env.HasValue options name v := not_exists.1 hv
    obtain ⟨text, hopen, hopen'⟩ := unresolved_of_not_hasValue hreplaces hmemory hmemory' hnone
    by_cases hmem : name ∈ path
    · rw [retrieve_of_mem_path detect hopen hmem, retrieve_of_mem_path detect hopen' hmem]
    · exact hresolve text memory memory' hmemory hmemory' hopen hopen' hmem hnone

/-- The recursion comes to the same value or the same error. By induction on the levels: a cell that
is resolved has no value, so there is one more cell without a value on the path. -/
theorem sameOutcome_retrieve (detect : options.detectCycles = true)
    (hreplaces : env.Replaces other options) (hroom : Room cells levels path)
    (hcovers : Covers env options cells name)
    (hpath : ∀ cell ∈ path, ∀ w, ¬ env.HasValue options cell w) :
    SameOutcome env other options (retrieve env options levels path)
      (retrieve other options levels path) name := by
  induction levels generalizing path name with
  | zero =>
    refine sameOutcome_of_unresolved detect hreplaces hroom hcovers hpath ?_
    intro text memory memory' _ _ hopen _ hmem _
    exact absurd (hcovers name text .refl hopen.formula) (hroom.not_zero hmem)
  | succ levels ih =>
    refine sameOutcome_of_unresolved detect hreplaces hroom hcovers hpath ?_
    intro text memory memory' hmemory hmemory' hopen hopen' hmem hnone
    have hname : name ∈ cells := hcovers name text .refl hopen.formula
    have hvalueless : ∀ cell ∈ name :: path, ∀ w, ¬ env.HasValue options cell w :=
      List.forall_mem_cons.2 ⟨hnone, hpath⟩
    have hsame : ((formulaInquiry options text).run
          (retrieve other options levels (name :: path)) memory').map Prod.fst =
        ((formulaInquiry options text).run
          (retrieve env options levels (name :: path)) memory).map Prod.fst :=
      map_run_eq (hasValue_of_retrieve levels (name :: path))
        (hasValue_of_retrieve levels (name :: path))
        (fun cell hcell => ih (hroom.cons hmem hname)
          (covers_of_mayAsk hcovers hopen.formula hcell) hvalueless)
        hmemory hmemory'
    rw [retrieve_succ_of_unresolved hopen fun _ => hmem,
      retrieve_succ_of_unresolved hopen' fun _ => hmem, map_fst_remember, map_fst_remember, hsame]

/-- A formula comes to the same value or the same error, if as many formula cells may be resolved at
once as it reaches. -/
theorem evaluateFormula_eq_of_replaces {text : String} (detect : options.detectCycles = true)
    (hreplaces : env.Replaces other options)
    (hcovers : ∀ name, Mentioned options text name → Covers env options cells name)
    (hroom : cells.card ≤ options.maxReferences) :
    evaluateFormula other options text = evaluateFormula env options text := by
  have hnone : ∀ cell ∈ ([] : List String), ∀ w, ¬ env.HasValue options cell w :=
    fun _ h => (List.not_mem_nil h).elim
  rw [evaluateFormula_eq_retrieve, evaluateFormula_eq_retrieve]
  exact map_run_eq (hasValue_of_retrieve _ _) (hasValue_of_retrieve _ _)
    (fun name hname => sameOutcome_retrieve detect hreplaces (room_nil hroom)
      (hcovers name (mentioned_of_mayAsk hname)) hnone) valued_empty valued_empty

/-- What evaluating a cell comes to is the value of the cell. -/
theorem hasValue_of_evaluateCell {cell : String} (h : evaluateCell env options cell = .ok v) :
    env.HasValue options (canonicalName cell) v := by
  rw [evaluateCell_eq_retrieve] at h
  cases hload : retrieve env options options.maxReferences [] (canonicalName cell) ∅ with
  | error e =>
    rw [hload] at h
    cases h
  | ok p =>
    rw [hload] at h
    cases h
    exact (hasValue_of_retrieve _ _ _ _ _ _ valued_empty hload).1

end Evaluation

end Spreadsheet
