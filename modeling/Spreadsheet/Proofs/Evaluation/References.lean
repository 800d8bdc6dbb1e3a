import Spreadsheet.Proofs.Evaluation.Retrieval
import Mathlib.Logic.Relation

/-!
# References between cells

A formula refers to the cells that it names and to the cells of the rectangles that it names. Its
inquiry asks for no other cells, and none of them can be left out if the formula has a value. The
cells of a rectangle that is larger than a range may be are mentioned, but never read.

## Main results

* `reads_of_mayAsk`: only cells that an expression reads are asked for.
* `mustAsk_of_mentions`: without the value of a cell that it mentions, an expression has no value.
-/

namespace Spreadsheet

/-- The cells that an expression mentions, by their canonical names. The corners of a range are
mentioned as cells of its rectangle; without a rectangle, the operands mention what they mention by
themselves. -/
inductive Expr.Mentions : Expr → String → Prop
  | reference (name : String) : Mentions (.reference name) (canonicalName name)
  | group {inner : Expr} {name : String} (h : Mentions inner name) : Mentions (.group inner) name
  | operand {operation : Operation} {args : List Expr} {e : Expr} {name : String}
    (hoperation : operation ≠ .operator .range) (he : e ∈ args) (h : Mentions e name) :
    Mentions (.apply operation args) name
  | member {args : List Expr} {start stop : String} {r : Range} {p : Position}
    (hcorners : corners args = .ok (start, stop)) (hrange : Range.ofNames start stop = .ok r)
    (hmember : r.contains p = true) : Mentions (.apply (.operator .range) args) p.name
  | stray {args : List Expr} {e : Expr} {name : String}
    (hnone : ∀ start stop r, corners args = .ok (start, stop) → Range.ofNames start stop ≠ .ok r)
    (he : e ∈ args) (h : Mentions e name) : Mentions (.apply (.operator .range) args) name

/-- The cells that an expression reads: those that it names as operands, and those of its ranges, if
a range may be as large as they are. -/
inductive Expr.Reads (options : Options) : Expr → String → Prop
  | reference (name : String) : Reads options (.reference name) (canonicalName name)
  | group {inner : Expr} {name : String} (h : Reads options inner name) :
    Reads options (.group inner) name
  | operand {operation : Operation} {args : List Expr} {e : Expr} {name : String}
    (hoperation : operation ≠ .operator .range) (he : e ∈ args) (h : Reads options e name) :
    Reads options (.apply operation args) name
  | member {args : List Expr} {start stop : String} {r : Range} {p : Position}
    (hcorners : corners args = .ok (start, stop)) (hrange : options.rangeBetween start stop = .ok r)
    (hmember : r.contains p = true) : Reads options (.apply (.operator .range) args) p.name

/-- The cells that a formula text mentions, if it can be read. -/
def Mentioned (options : Options) (text name : String) : Prop :=
  ∃ e, Expr.ofFormula text options.maxNesting = .ok e ∧ e.Mentions name

/-- The graph of references: a formula cell refers to the cells that its text mentions. -/
def Environment.Refers (env : Environment) (options : Options) (name other : String) : Prop :=
  ∃ text, env name = some (.formula text) ∧ Mentioned options text other

/-- The cells that an expression refers to, directly or through other cells. -/
def Expr.Reaches (env : Environment) (options : Options) (e : Expr) (name : String) : Prop :=
  ∃ first, e.Mentions first ∧ Relation.ReflTransGen (env.Refers options) first name

/-- The cells that a formula text refers to, directly or through other cells. -/
def Reached (env : Environment) (options : Options) (text name : String) : Prop :=
  ∃ e, Expr.ofFormula text options.maxNesting = .ok e ∧ e.Reaches env options name

/-- The cells that a formula text reads by itself. -/
def ReadsDirectly (options : Options) (text name : String) : Prop :=
  ∃ e, Expr.ofFormula text options.maxNesting = .ok e ∧ e.Reads options name

/-- A formula cell reads the cells that its text reads. -/
def Environment.Reads (env : Environment) (options : Options) (name other : String) : Prop :=
  ∃ text, env name = some (.formula text) ∧ ReadsDirectly options text other

/-- The cells that a formula text reads, directly or through the formulas of other cells. -/
def DependsOn (env : Environment) (options : Options) (text name : String) : Prop :=
  ∃ first, ReadsDirectly options text first ∧ Relation.ReflTransGen (env.Reads options) first name

theorem Range.mem_names {r : Range} {name : String} :
    name ∈ r.names ↔ ∃ p, r.contains p = true ∧ p.name = name := by
  simp only [names, List.mem_map, mem_cells_iff]

/-- A range may be walked through if its corners are cells and it is not too large. -/
theorem Options.rangeBetween_eq_ok_iff {options : Options} {start stop : String} {r : Range} :
    options.rangeBetween start stop = .ok r ↔
      Range.ofNames start stop = .ok r ∧ r.count ≤ options.maxRangeCells := by
  unfold rangeBetween
  constructor
  · intro h
    split at h
    · cases h
    · next hrange =>
      split at h
      · cases h
      · next hsmall =>
        cases h
        exact ⟨hrange, Nat.le_of_not_lt hsmall⟩
  · rintro ⟨hrange, hsmall⟩
    rw [hrange]
    exact if_neg (Nat.not_lt.2 hsmall)

namespace Expr

variable {options : Options} {name : String}

/-- What an expression reads, it mentions. -/
theorem Reads.mentions {e : Expr} (h : e.Reads options name) : e.Mentions name := by
  induction h with
  | reference cell => exact .reference cell
  | group _ ih => exact .group ih
  | operand hoperation he _ ih => exact .operand hoperation he ih
  | member hcorners hrange hmember =>
    exact .member hcorners (Options.rangeBetween_eq_ok_iff.1 hrange).1 hmember

/-! ## Questions are references -/

theorem reads_of_mayAsk_range {args : List Expr} {p : String × String}
    (hcorners : corners args = .ok p) (h : (rangeInquiry options p.1 p.2).MayAsk name) :
    Reads options (.apply (.operator .range) args) name := by
  rw [rangeInquiry] at h
  cases hrange : options.rangeBetween p.1 p.2 with
  | error e => rw [hrange] at h; cases h
  | ok r =>
    rw [hrange, Inquiry.done_ok_bind] at h
    rcases Inquiry.mayAsk_bind h with hask | ⟨vs, hdone⟩
    · obtain ⟨q, hq, rfl⟩ := Range.mem_names.1 (Inquiry.mayAsk_askAll hask)
      exact .member hcorners hrange hq
    · cases hdone

mutual

/-- Only cells that an expression reads are asked for. -/
theorem reads_of_mayAsk : (e : Expr) → (e.inquiry options).MayAsk name → e.Reads options name
  | .constant v, h => by
    rw [inquiry] at h
    cases h
  | .reference cell, h => by
    rw [inquiry] at h
    cases h with
    | here => exact .reference cell
    | later hdone => cases hdone
  | .group inner, h => by
    rw [inquiry] at h
    exact .group (reads_of_mayAsk inner h)
  | .apply operation args, h => by
    rw [inquiry] at h
    split at h
    · next hrange =>
      subst hrange
      cases hcorners : corners args with
      | error e => rw [hcorners] at h; cases h
      | ok p =>
        rw [hcorners] at h
        exact reads_of_mayAsk_range hcorners h
    · next hrange =>
      rcases Inquiry.mayAsk_bind h with hargs | ⟨vs, hdone⟩
      · obtain ⟨e, he, hreads⟩ := reads_of_mayAsk_all args hargs
        exact .operand hrange he hreads
      · cases hdone

theorem reads_of_mayAsk_all :
    (es : List Expr) → (inquiryOfAll options es).MayAsk name → ∃ e ∈ es, e.Reads options name
  | [], h => by cases h
  | e :: rest, h => by
    rw [inquiryOfAll] at h
    rcases Inquiry.mayAsk_bind h with hfirst | ⟨v, hothers⟩
    · exact ⟨e, by simp, reads_of_mayAsk e hfirst⟩
    · rcases Inquiry.mayAsk_bind hothers with hrest | ⟨vs, hdone⟩
      · obtain ⟨f, hf, hreads⟩ := reads_of_mayAsk_all rest hrest
        exact ⟨f, List.mem_cons_of_mem _ hf, hreads⟩
      · cases hdone

end

/-! ## References are questions -/

theorem mustAsk_inquiryOfAll {e : Expr} {es : List Expr} (he : e ∈ es)
    (h : (e.inquiry options).MustAsk name) : (inquiryOfAll options es).MustAsk name := by
  induction es with
  | nil => cases he
  | cons first rest ih =>
    rw [inquiryOfAll]
    rcases List.mem_cons.1 he with rfl | hrest
    · exact Inquiry.mustAsk_bind_left _ h
    · exact Inquiry.mustAsk_bind_right fun v => Inquiry.mustAsk_bind_left _ (ih hrest)

/-- Without the value of a cell that it mentions, an expression has no value. -/
theorem mustAsk_of_mentions {e : Expr} (h : e.Mentions name) :
    (e.inquiry options).MustAsk name := by
  induction h with
  | reference cell =>
    rw [inquiry]
    exact .inl rfl
  | group _ ih =>
    rw [inquiry]
    exact ih
  | operand hoperation he _ ih =>
    rw [inquiry, if_neg hoperation]
    exact Inquiry.mustAsk_bind_left _ (mustAsk_inquiryOfAll he ih)
  | @member args start stop r p hcorners hrange hmember =>
    rw [inquiry, if_pos rfl, hcorners, Inquiry.done_ok_bind]
    dsimp only
    rw [rangeInquiry, Options.rangeBetween, hrange]
    dsimp only
    split
    · trivial
    · rw [Inquiry.done_ok_bind]
      exact Inquiry.mustAsk_bind_left _
        (Inquiry.mustAsk_askAll (Range.mem_names.2 ⟨p, hmember, rfl⟩))
  | @stray args _ _ hnone _ _ _ =>
    rw [inquiry, if_pos rfl]
    cases hcorners : corners args with
    | error err => trivial
    | ok p =>
      rw [Inquiry.done_ok_bind]
      dsimp only
      rw [rangeInquiry, Options.rangeBetween]
      cases hrange : Range.ofNames p.1 p.2 with
      | error err => trivial
      | ok r => exact absurd hrange (hnone p.1 p.2 r hcorners)

theorem reads_of_mayAsk_checked {e : Expr} (h : (e.checkedInquiry options).MayAsk name) :
    e.Reads options name := by
  rw [checkedInquiry] at h
  cases hcheck : e.checkCorners with
  | error err => rw [hcheck] at h; cases h
  | ok u =>
    rw [hcheck] at h
    exact reads_of_mayAsk e h

theorem mentions_of_mayAsk_checked {e : Expr} (h : (e.checkedInquiry options).MayAsk name) :
    e.Mentions name :=
  (reads_of_mayAsk_checked h).mentions

theorem mustAsk_checked_of_mentions {e : Expr} (h : e.Mentions name) :
    (e.checkedInquiry options).MustAsk name :=
  Inquiry.mustAsk_bind_right fun _ => mustAsk_of_mentions h

end Expr

theorem ReadsDirectly.mentioned {options : Options} {text name : String}
    (h : ReadsDirectly options text name) : Mentioned options text name := by
  obtain ⟨e, hparse, hreads⟩ := h
  exact ⟨e, hparse, hreads.mentions⟩

theorem readsDirectly_of_mayAsk {options : Options} {text name : String}
    (h : (formulaInquiry options text).MayAsk name) : ReadsDirectly options text name := by
  rw [formulaInquiry] at h
  cases hparse : Expr.ofFormula text options.maxNesting with
  | error e => rw [hparse] at h; cases h
  | ok e =>
    rw [hparse] at h
    exact ⟨e, hparse, Expr.reads_of_mayAsk_checked h⟩

theorem mentioned_of_mayAsk {options : Options} {text name : String}
    (h : (formulaInquiry options text).MayAsk name) : Mentioned options text name :=
  (readsDirectly_of_mayAsk h).mentioned

theorem mustAsk_of_mentioned {options : Options} {text name : String}
    (h : Mentioned options text name) : (formulaInquiry options text).MustAsk name := by
  obtain ⟨e, hparse, hmentions⟩ := h
  rw [formulaInquiry, hparse]
  exact Expr.mustAsk_checked_of_mentions hmentions

end Spreadsheet
