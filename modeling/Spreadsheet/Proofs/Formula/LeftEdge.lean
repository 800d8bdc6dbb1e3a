import Spreadsheet.Proofs.Formula.Climb

/-!
# The left edge of a tree

A range operator goes down the left edge of a tree, past everything that is no sign, and takes over
what it finds there. If its left operand is a sign and its operand, then the sign applies to the new
range, and stands where the edge ended before. So whether a sign becomes the left operand of a range
depends on what the end of the edge hangs from.

## Main results

* `signedCorner_graft_range`: when grafting a range operator makes a sign the operand of a range.
* `signedCorner_graftAll`: the same for a whole run of items.
-/

namespace Spreadsheet

namespace Expr

/-- Somewhere the first operand of a range is a sign and its operand. -/
inductive SignedCorner : Expr → Prop
  | here {first : Expr} (h : first.IsSign) (others : List Expr) :
    SignedCorner (.operator .range (first :: others))
  | operand {operation : Operation} {args : List Expr} {e : Expr} (he : e ∈ args)
    (h : SignedCorner e) : SignedCorner (.apply operation args)
  | group {inner : Expr} (h : SignedCorner inner) : SignedCorner (.group inner)

/-- The left edge of a tree ends at its topmost node: a range operator does not go past it. -/
def EndsEdge : Expr → Prop
  | .apply (.operator op) (_ :: _) => op.isSign = true
  | _ => True

/-- The end of the left edge hangs from a range. -/
def HangsFromRange : Expr → Prop
  | .apply (.operator op) (first :: _) =>
    op.isSign = false ∧ (first.EndsEdge ∧ op = .range ∨ ¬ first.EndsEdge ∧ first.HangsFromRange)
  | _ => False

/-- Somewhere the first operand of a range is a sign and its operand, but not only because the end
of the left edge is one. -/
def InnerCorner : Expr → Prop
  | .apply (.operator op) (first :: others) =>
    if op.isSign then first.SignedCorner ∨ ∃ e ∈ others, e.SignedCorner
    else first.InnerCorner ∨ ∃ e ∈ others, e.SignedCorner
  | e => e.SignedCorner

variable {op : Operator} {left right first e : Expr} {others args : List Expr}

/-! ## Corners of nodes -/

@[simp] theorem not_signedCorner_constant (v : Value) : ¬ SignedCorner (.constant v) := by
  intro h
  cases h

@[simp] theorem not_signedCorner_reference (name : String) : ¬ SignedCorner (.reference name) := by
  intro h
  cases h

@[simp] theorem signedCorner_group : SignedCorner (.group e) ↔ e.SignedCorner := by
  constructor
  · intro h
    cases h with
    | group h => exact h
  · exact .group

theorem signedCorner_apply {operation : Operation} (h : operation ≠ .operator .range) :
    SignedCorner (.apply operation args) ↔ ∃ e ∈ args, e.SignedCorner := by
  constructor
  · intro hcorner
    cases hcorner with
    | here _ _ => exact absurd rfl h
    | operand he hcorner => exact ⟨_, he, hcorner⟩
  · rintro ⟨e, he, hcorner⟩
    exact .operand he hcorner

theorem signedCorner_operator (h : op ≠ .range) :
    SignedCorner (.operator op (first :: others)) ↔
      first.SignedCorner ∨ ∃ e ∈ others, e.SignedCorner := by
  rw [signedCorner_apply (by simpa using h)]
  simp

theorem signedCorner_range :
    SignedCorner (.operator .range (first :: others)) ↔
      first.IsSign ∨ first.SignedCorner ∨ ∃ e ∈ others, e.SignedCorner := by
  constructor
  · intro h
    cases h with
    | here h _ => exact .inl h
    | operand he h =>
      rcases List.mem_cons.1 he with rfl | hothers
      · exact .inr (.inl h)
      · exact .inr (.inr ⟨_, hothers, h⟩)
  · rintro (h | h | ⟨e, he, h⟩)
    · exact .here h others
    · exact .operand List.mem_cons_self h
    · exact .operand (List.mem_cons_of_mem _ he) h

theorem signedCorner_sign {sign : Operator} (h : sign.isSign = true) :
    SignedCorner (.operator sign [e]) ↔ e.SignedCorner := by
  have hrange : sign ≠ .range := by
    rintro rfl
    cases h
  simp [signedCorner_operator hrange]

theorem signedCorner_percent : SignedCorner (.operator .percent [e]) ↔ e.SignedCorner := by
  simp [signedCorner_operator]

theorem signedCorner_between (h : op ≠ .range) :
    (left.between op right).SignedCorner ↔ left.SignedCorner ∨ right.SignedCorner := by
  rw [between]
  split
  · simp [signedCorner_operator]
  · simp [signedCorner_operator h]

/-! ## The left edge -/

theorem not_endsEdge_operator (h : op.isSign = false) :
    ¬ EndsEdge (.operator op (first :: others)) := by
  intro hends
  rw [EndsEdge, h] at hends
  cases hends

theorem innerCorner_operator (h : op.isSign = false) :
    InnerCorner (.operator op (first :: others)) ↔
      first.InnerCorner ∨ ∃ e ∈ others, e.SignedCorner := by
  simp [InnerCorner, h]

theorem hangsFromRange_operator (h : op.isSign = false) :
    HangsFromRange (.operator op (first :: others)) ↔
      first.EndsEdge ∧ op = .range ∨ ¬ first.EndsEdge ∧ first.HangsFromRange := by
  simp [HangsFromRange, h]

/-- Above the end of the left edge there is nothing. -/
theorem innerCorner_of_endsEdge (h : e.EndsEdge) : e.InnerCorner ↔ e.SignedCorner := by
  unfold InnerCorner
  split
  · next op first others =>
    have hsign : op.isSign = true := h
    have hrange : op ≠ .range := by
      rintro rfl
      cases hsign
    rw [if_pos hsign, signedCorner_operator hrange]
  · exact Iff.rfl

theorem not_hangsFromRange_of_endsEdge (h : e.EndsEdge) : ¬ e.HangsFromRange := by
  unfold HangsFromRange
  split
  · next op first others =>
    have hsign : op.isSign = true := h
    simp [hsign]
  · exact id

theorem endsEdge_of_isSign (h : e.IsSign) : e.EndsEdge := by
  obtain ⟨sign, operand, rfl, hsign⟩ := h
  exact hsign

/-! ## Grafting other operators -/

theorem innerCorner_between (h : op.fixity = .between) :
    (left.between op right).InnerCorner ↔ left.InnerCorner ∨ right.SignedCorner := by
  rw [between]
  split
  · have hsign : Operator.negate.isSign = true := rfl
    rw [innerCorner_operator rfl]
    simp [signedCorner_sign hsign]
  · rw [innerCorner_operator (Operator.not_isSign_of_between h)]
    simp

/-- What an operator other than the range operator goes past is no range and no sign. -/
theorem ne_range_of_descends {inner : Operator} (h : op.fixity = .between) (hrange : op ≠ .range)
    (hdescends : op.descends inner = true) : inner ≠ .range ∧ inner.isSign = false := by
  constructor
  · rintro rfl
    have hle : Operator.range.strength ≤ op.strength := by
      simpa [Operator.descends, Operator.fixity] using hdescends
    have hstrength : Operator.range.strength = 8 := rfl
    exact hrange (Operator.eq_range_of_le h (by omega))
  · cases hsign : inner.isSign with
    | false => rfl
    | true =>
      rw [Operator.not_descends_of_isSign hsign] at hdescends
      cases hdescends

theorem signedCorner_graft (h : op.fixity = .between) (hrange : op ≠ .range) :
    (graft left op right).SignedCorner ↔ left.SignedCorner ∨ right.SignedCorner := by
  fun_induction graft left op right with
  | case1 inner first others hdescends ih =>
    obtain ⟨hinner, -⟩ := ne_range_of_descends h hrange hdescends
    rw [signedCorner_operator hinner, signedCorner_operator hinner, ih, or_assoc]
  | case2 inner first others _ =>
    rw [join_eq fun hop => absurd hop hrange, signedCorner_between hrange]
  | case3 right _ => rw [join_eq fun hop => absurd hop hrange, signedCorner_between hrange]

theorem innerCorner_graft (h : op.fixity = .between) (hrange : op ≠ .range) :
    (graft left op right).InnerCorner ↔ left.InnerCorner ∨ right.SignedCorner := by
  fun_induction graft left op right with
  | case1 inner first others hdescends ih =>
    obtain ⟨hinner, hsign⟩ := ne_range_of_descends h hrange hdescends
    rw [innerCorner_operator hsign, signedCorner_operator hinner, ih, or_assoc]
  | case2 inner first others _ =>
    rw [join_eq fun hop => absurd hop hrange, innerCorner_between h]
  | case3 right _ => rw [join_eq fun hop => absurd hop hrange, innerCorner_between h]

theorem not_hangsFromRange_between (h : op.fixity = .between) (hrange : op ≠ .range)
    (hleft : ¬ left.HangsFromRange) : ¬ (left.between op right).HangsFromRange := by
  rw [between]
  split
  · rw [hangsFromRange_operator rfl]
    rintro (⟨-, hop⟩ | ⟨-, hhangs⟩)
    · cases hop
    · exact hleft hhangs
  · rw [hangsFromRange_operator (Operator.not_isSign_of_between h)]
    rintro (⟨-, hop⟩ | ⟨-, hhangs⟩)
    · exact hrange hop
    · exact hleft hhangs

theorem not_hangsFromRange_graft (h : op.fixity = .between) (hrange : op ≠ .range)
    (hleft : ¬ left.HangsFromRange) : ¬ (graft left op right).HangsFromRange := by
  fun_induction graft left op right with
  | case1 inner first others hdescends ih =>
    obtain ⟨hinner, hsign⟩ := ne_range_of_descends h hrange hdescends
    rw [hangsFromRange_operator hsign]
    rintro (⟨-, hop⟩ | ⟨-, hhangs⟩)
    · exact hinner hop
    · exact ih hhangs
  | case2 inner first others _ =>
    rw [join_eq fun hop => absurd hop hrange]
    exact not_hangsFromRange_between h hrange hleft
  | case3 right _ =>
    rw [join_eq fun hop => absurd hop hrange]
    exact not_hangsFromRange_between h hrange hleft

/-! ## Grafting the range operator -/

/-- An expression that is no operator with its operands. -/
def IsAtom (e : Expr) : Prop :=
  ∀ op args, e ≠ .operator op args

/-- What stands in front of an operator: an operand, with percent signs behind it. -/
inductive Leading : Expr → Prop
  | plain {e : Expr} (h : e.IsAtom) : Leading e
  | sign {sign : Operator} {e : Expr} (hsign : sign.isSign = true) (h : e.IsAtom) :
    Leading (.operator sign [e])
  | percent {e : Expr} (h : Leading e) : Leading (.operator .percent [e])

theorem IsAtom.endsEdge (h : e.IsAtom) : e.EndsEdge := by
  unfold EndsEdge
  split
  · exact (h _ _ rfl).elim
  · trivial

theorem IsAtom.not_isSign (h : e.IsAtom) : ¬ e.IsSign := by
  rintro ⟨sign, operand, heq, -⟩
  exact h _ _ heq

theorem Leading.not_hangsFromRange (h : left.Leading) : ¬ left.HangsFromRange := by
  induction h with
  | plain h => exact not_hangsFromRange_of_endsEdge h.endsEdge
  | sign hsign _ => exact not_hangsFromRange_of_endsEdge hsign
  | percent _ ih =>
    rw [hangsFromRange_operator rfl]
    rintro (⟨-, hop⟩ | ⟨-, hhangs⟩)
    · cases hop
    · exact ih hhangs

theorem Leading.innerCorner_iff (h : left.Leading) : left.InnerCorner ↔ left.SignedCorner := by
  induction h with
  | plain h => exact innerCorner_of_endsEdge h.endsEdge
  | sign hsign _ => exact innerCorner_of_endsEdge hsign
  | percent _ ih =>
    rw [innerCorner_operator rfl, signedCorner_percent, ih]
    simp

/-- A range operator between two trees: the sign of the left one applies to the range. -/
theorem Leading.join_range (h : left.Leading) (right : Expr) :
    (¬ left.IsSign ∧ join left .range right = .operator .range [left, right]) ∨
      ∃ sign operand, sign.isSign = true ∧ operand.IsAtom ∧ left = .operator sign [operand] ∧
        join left .range right = .operator sign [.operator .range [operand, right]] := by
  have hjoin : ∀ e : Expr, ¬ e.IsSign → join e .range right = .operator .range [e, right] :=
    fun e he => join_eq fun _ => he
  cases h with
  | plain h => exact .inl ⟨h.not_isSign, hjoin left h.not_isSign⟩
  | @sign sign operand hsign h =>
    refine .inr ⟨sign, operand, hsign, h, rfl, ?_⟩
    have htighter : (sign.isSign && sign.strength < Operator.range.strength) = true := by
      rw [hsign, Operator.strength_of_isSign hsign]
      rfl
    have hplace : place .range right operand = .operator .range [operand, right] :=
      place_eq fun _ => h.not_isSign
    rw [join, if_neg (by decide), place, if_pos htighter, hplace]
  | percent _ => exact .inl ⟨not_isSign_percent _, hjoin _ (not_isSign_percent _)⟩

/-- Induction along the left edge, from its end upwards. -/
@[elab_as_elim]
theorem edge_induction {P : Expr → Prop} (stop : ∀ e : Expr, e.EndsEdge → P e)
    (down : ∀ (op : Operator) (first : Expr) (others : List Expr), op.isSign = false → P first →
      P (.operator op (first :: others))) : (e : Expr) → P e
  | .constant v => stop _ trivial
  | .reference name => stop _ trivial
  | .group inner => stop _ trivial
  | .apply (.builtin f) args => stop _ trivial
  | .apply (.operator op) [] => stop _ trivial
  | .apply (.operator op) (first :: others) => by
    cases hsign : op.isSign with
    | true => exact stop _ hsign
    | false => exact down op first others hsign (edge_induction stop down first)

theorem graft_range_of_endsEdge (h : right.EndsEdge) :
    graft left .range right = join left .range right := by
  unfold graft
  split
  · next inner first others =>
    have hsign : inner.isSign = true := h
    rw [if_neg (by simp [Operator.not_descends_of_isSign hsign])]
  · rfl

theorem graft_range_operator (h : op.isSign = false) :
    graft left .range (.operator op (first :: others)) =
      .operator op (graft left .range first :: others) := by
  have hdescends : Operator.descends .range op = true := by
    cases op <;> first | rfl | cases h
  rw [graft, if_pos hdescends]

section

variable (hleft : left.Leading)

include hleft

theorem signedCorner_join_range :
    (join left .range right).SignedCorner ↔ left.SignedCorner ∨ right.SignedCorner := by
  rcases hleft.join_range right with ⟨hsign, hjoin⟩ | ⟨sign, operand, hsign, hatom, rfl, hjoin⟩
  · simp [hjoin, signedCorner_range, hsign]
  · simp [hjoin, signedCorner_sign hsign, signedCorner_range, hatom.not_isSign]

theorem innerCorner_join_range :
    (join left .range right).InnerCorner ↔ left.SignedCorner ∨ right.SignedCorner := by
  rcases hleft.join_range right with ⟨hsign, hjoin⟩ | ⟨sign, operand, hsign, hatom, rfl, hjoin⟩
  · rw [hjoin, innerCorner_operator rfl, hleft.innerCorner_iff]
    simp
  · rw [← signedCorner_join_range hleft, hjoin]
    exact innerCorner_of_endsEdge hsign

theorem isSign_join_range : (join left .range right).IsSign ↔ left.IsSign := by
  rcases hleft.join_range right with ⟨hsign, hjoin⟩ | ⟨sign, operand, hsign, hatom, rfl, hjoin⟩
  · rw [hjoin]
    exact iff_of_false (not_isSign_operator rfl _) hsign
  · rw [hjoin]
    exact ⟨fun _ => ⟨sign, _, rfl, hsign⟩, fun _ => ⟨sign, _, rfl, hsign⟩⟩

theorem endsEdge_join_range : (join left .range right).EndsEdge ↔ left.IsSign := by
  constructor
  · intro h
    rcases hleft.join_range right with ⟨hsign, hjoin⟩ | ⟨sign, operand, hsign, hatom, rfl, hjoin⟩
    · rw [hjoin] at h
      exact absurd h (not_endsEdge_operator rfl)
    · exact ⟨sign, operand, rfl, hsign⟩
  · intro h
    exact endsEdge_of_isSign ((isSign_join_range hleft).2 h)

theorem hangsFromRange_join_range :
    (join left .range right).HangsFromRange ↔ ¬ left.IsSign ∧ left.EndsEdge := by
  rcases hleft.join_range right with ⟨hsign, hjoin⟩ | ⟨sign, operand, hsign, hatom, rfl, hjoin⟩
  · rw [hjoin, hangsFromRange_operator rfl]
    simp [hsign, hleft.not_hangsFromRange]
  · have hends : EndsEdge (.operator sign [.operator .range [operand, right]]) := hsign
    have hsigned : IsSign (.operator sign [operand]) := ⟨sign, operand, rfl, hsign⟩
    simp [hjoin, not_hangsFromRange_of_endsEdge hends, hsigned]

/-- A sign that is grafted stands where the left edge ended before. -/
theorem endsEdge_graft_range :
    (graft left .range right).EndsEdge ↔ left.IsSign ∧ right.EndsEdge := by
  induction right using edge_induction with
  | stop right h =>
    rw [graft_range_of_endsEdge h, endsEdge_join_range hleft]
    simp [h]
  | down op first others hsign ih =>
    rw [graft_range_operator hsign]
    exact iff_of_false (not_endsEdge_operator hsign) fun h => not_endsEdge_operator hsign h.2

theorem isSign_graft_range :
    (graft left .range right).IsSign ↔ left.IsSign ∧ right.EndsEdge := by
  induction right using edge_induction with
  | stop right h =>
    rw [graft_range_of_endsEdge h, isSign_join_range hleft]
    simp [h]
  | down op first others hsign ih =>
    rw [graft_range_operator hsign]
    exact iff_of_false (not_isSign_operator hsign _) fun h => not_endsEdge_operator hsign h.2

/-- A sign becomes the first operand of a range if it is grafted onto a tree whose left edge ends
below a range. -/
theorem signedCorner_graft_range :
    (graft left .range right).SignedCorner ↔
      left.SignedCorner ∨ right.InnerCorner ∨ left.IsSign ∧ right.HangsFromRange := by
  induction right using edge_induction with
  | stop right h =>
    rw [graft_range_of_endsEdge h, signedCorner_join_range hleft, innerCorner_of_endsEdge h]
    simp [not_hangsFromRange_of_endsEdge h]
  | down op first others hsign ih =>
    rw [graft_range_operator hsign, innerCorner_operator hsign, hangsFromRange_operator hsign]
    by_cases hrange : op = .range
    · subst hrange
      rw [signedCorner_range, isSign_graft_range hleft, ih]
      have hhangs : first.EndsEdge → ¬ first.HangsFromRange := not_hangsFromRange_of_endsEdge
      grind
    · rw [signedCorner_operator hrange, ih]
      have hhangs : first.EndsEdge → ¬ first.HangsFromRange := not_hangsFromRange_of_endsEdge
      grind

theorem innerCorner_graft_range :
    (graft left .range right).InnerCorner ↔ left.SignedCorner ∨ right.InnerCorner := by
  induction right using edge_induction with
  | stop right h =>
    rw [graft_range_of_endsEdge h, innerCorner_join_range hleft, innerCorner_of_endsEdge h]
  | down op first others hsign ih =>
    rw [graft_range_operator hsign, innerCorner_operator hsign, innerCorner_operator hsign, ih,
      or_assoc]

/-- A sign keeps what its place hangs from; any other operand hangs from the new range. -/
theorem hangsFromRange_graft_range :
    (graft left .range right).HangsFromRange ↔
      left.IsSign ∧ right.HangsFromRange ∨ ¬ left.IsSign ∧ left.EndsEdge := by
  induction right using edge_induction with
  | stop right h =>
    rw [graft_range_of_endsEdge h, hangsFromRange_join_range hleft]
    simp [not_hangsFromRange_of_endsEdge h]
  | down op first others hsign ih =>
    rw [graft_range_operator hsign, hangsFromRange_operator hsign, hangsFromRange_operator hsign,
      endsEdge_graft_range hleft, ih]
    have hhangs : first.EndsEdge → ¬ first.HangsFromRange := not_hangsFromRange_of_endsEdge
    grind

end

end Expr

/-! ## Items -/

namespace Item

/-- Grafting the items behind an operand makes a sign the first operand of a range, whatever the
operand is. -/
def SignedCorners : List Item → Prop
  | [] => False
  | .percent :: rest => SignedCorners rest
  | .binary op e :: rest =>
    if op = .range then (e.graftAll rest).InnerCorner else (e.graftAll rest).SignedCorner

/-- The operators of the items stand between two operands. -/
def Joins (items : List Item) : Prop :=
  ∀ op e, .binary op e ∈ items → op.fixity = .between

/-- The items begin with a range operator, and grafting them leaves its right operand hanging from
a range. -/
inductive Pulls : List Item → Prop
  | mk {e : Expr} {rest : List Item} (h : (e.graftAll rest).HangsFromRange) :
    Pulls (.binary .range e :: rest)

variable {left : Expr} {items : List Item}

theorem pulls_range {e : Expr} {rest : List Item} :
    Pulls (.binary .range e :: rest) ↔ (e.graftAll rest).HangsFromRange := by
  constructor
  · intro h
    cases h with
    | mk h => exact h
  · exact .mk

theorem innerCorner_graftAll (hleft : left.Leading) (hitems : Joins items) :
    (left.graftAll items).InnerCorner ↔ left.SignedCorner ∨ SignedCorners items := by
  induction items generalizing left with
  | nil => simp [Expr.graftAll, SignedCorners, hleft.innerCorner_iff]
  | cons item rest ih =>
    have hrest : Joins rest := fun op e h => hitems op e (List.mem_cons_of_mem _ h)
    cases item with
    | percent =>
      rw [Expr.graftAll, ih hleft.percent hrest, Expr.signedCorner_percent, SignedCorners]
    | binary op e =>
      have hop : op.fixity = .between := hitems op e List.mem_cons_self
      rw [Expr.graftAll, SignedCorners]
      by_cases hrange : op = .range
      · subst hrange
        rw [Expr.innerCorner_graft_range hleft, if_pos rfl]
      · rw [Expr.innerCorner_graft hop hrange, hleft.innerCorner_iff, if_neg hrange]

/-- An operand that is a sign becomes the first operand of a range if the items pull it there. -/
theorem signedCorner_graftAll (hleft : left.Leading) (hitems : Joins items) :
    (left.graftAll items).SignedCorner ↔
      left.SignedCorner ∨ SignedCorners items ∨ left.IsSign ∧ Pulls items := by
  induction items generalizing left with
  | nil =>
    have hpulls : ¬ Pulls [] := fun h => by cases h
    simp [Expr.graftAll, SignedCorners, hpulls]
  | cons item rest ih =>
    have hrest : Joins rest := fun op e h => hitems op e (List.mem_cons_of_mem _ h)
    cases item with
    | percent =>
      have hpulls : ¬ Pulls (.percent :: rest) := fun h => by cases h
      rw [Expr.graftAll, ih hleft.percent hrest, Expr.signedCorner_percent, SignedCorners]
      simp [Expr.not_isSign_percent, hpulls]
    | binary op e =>
      have hop : op.fixity = .between := hitems op e List.mem_cons_self
      rw [Expr.graftAll, SignedCorners]
      by_cases hrange : op = .range
      · subst hrange
        rw [Expr.signedCorner_graft_range hleft, if_pos rfl, pulls_range]
      · have hpulls : ¬ Pulls (.binary op e :: rest) := fun h => by
          cases h
          exact hrange rfl
        rw [Expr.signedCorner_graft hop hrange, if_neg hrange]
        simp [hpulls]

theorem hangsFromRange_graftAll (hleft : left.Leading) (hitems : Joins items) :
    (left.graftAll items).HangsFromRange ↔
      left.EndsEdge ∧ ∃ e rest, items = .binary .range e :: rest ∧ (left.IsSign → Pulls items) := by
  induction items generalizing left with
  | nil => simp [Expr.graftAll, hleft.not_hangsFromRange]
  | cons item rest ih =>
    have hrest : Joins rest := fun op e h => hitems op e (List.mem_cons_of_mem _ h)
    cases item with
    | percent =>
      have hends : ¬ Expr.EndsEdge (.operator .percent [left]) := Expr.not_endsEdge_operator rfl
      rw [Expr.graftAll, ih hleft.percent hrest]
      simp [hends]
    | binary op e =>
      have hop : op.fixity = .between := hitems op e List.mem_cons_self
      rw [Expr.graftAll]
      by_cases hrange : op = .range
      · subst hrange
        have hends : left.IsSign → left.EndsEdge := Expr.endsEdge_of_isSign
        rw [Expr.hangsFromRange_graft_range hleft]
        simp only [List.cons.injEq, Item.binary.injEq, pulls_range]
        grind
      · simp [Expr.not_hangsFromRange_graft hop hrange hleft.not_hangsFromRange, hrange]

end Item

end Spreadsheet
