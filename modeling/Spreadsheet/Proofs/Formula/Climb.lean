import Spreadsheet.Proofs.Formula.Grammar

/-!
# Grafting and climbing

A run can be turned into a tree from either end. Grafting begins at its right end and lets every
operator down the left edge of the tree that is there; climbing begins at its left end and takes,
for every operator, as much to the right as binds more tightly. Both give one tree, because an
operator goes past everything that climbing with its right operand would have left.

## Main results

* `graft_graft`: an operator passes a node that binds no more tightly, to the left operand of it.
* `graft_graftAll`: so it passes all items that climbing with its right operand leaves.
* `graftAll_of_climbs`: climbing does not change the tree that grafting gives.
* `exists_climbs`: climbing comes to an end.
-/

namespace Spreadsheet

/-- Whether an expression is a sign and its operand. -/
def Expr.IsSign (e : Expr) : Prop :=
  ∃ sign operand, e = .operator sign [operand] ∧ sign.isSign = true

/-- An operator between its operands; a difference is the sum with the negated right operand. -/
def Expr.between (left : Expr) (op : Operator) (right : Expr) : Expr :=
  if op = .subtract then .operator .add [left, .operator .negate [right]]
  else .operator op [left, right]

namespace Operator

theorem strength_le (op : Operator) : op.strength ≤ 8 := by
  cases op <;> decide

/-- Only the range operator binds more tightly than a sign. -/
theorem eq_range_of_lt {op : Operator} (h : 7 < op.strength) : op = .range := by
  cases op <;> first | rfl | exact absurd h (by decide)

/-- Of the operators between operands, only the range operator is as tight as a percent sign. -/
theorem eq_range_of_le {op : Operator} (hfixity : op.fixity = .between) (h : 6 ≤ op.strength) :
    op = .range := by
  cases op <;> first | rfl | exact absurd h (by decide) | exact absurd hfixity (by decide)

theorem not_isSign_of_between {op : Operator} (h : op.fixity = .between) : op.isSign = false := by
  rw [isSign, h]
  rfl

/-- A sign binds more tightly than a percent sign and less tightly than a range. -/
theorem strength_of_isSign {sign : Operator} (h : sign.isSign = true) : sign.strength = 7 := by
  cases sign <;> first | rfl | exact absurd h (by decide)

/-- What an operator goes past, a tighter one goes past too. -/
theorem descends_trans {op other inner : Operator} (h : other.descends inner = true)
    (hle : other.strength ≤ op.strength) : op.descends inner = true := by
  unfold descends at h ⊢
  cases hfixity : inner.fixity with
  | before =>
    rw [hfixity] at h
    cases h
  | between =>
    rw [hfixity] at h
    simp only [decide_eq_true_eq] at h ⊢
    omega
  | behind =>
    rw [hfixity] at h
    simp only [decide_eq_true_eq] at h ⊢
    omega

theorem descends_of_between {op inner : Operator} (h : inner.fixity = .between)
    (hle : inner.strength ≤ op.strength) : op.descends inner = true := by
  rw [descends, h]
  simpa using hle

theorem not_descends_of_isSign {op sign : Operator} (h : sign.isSign = true) :
    op.descends sign = false := by
  have hfixity : sign.fixity = .before := by simpa [isSign] using h
  rw [descends, hfixity]

end Operator

namespace Expr

/-! ## One operator -/

theorem not_isSign_operator {op : Operator} (h : op.isSign = false) (args : List Expr) :
    ¬ IsSign (.operator op args) := by
  rintro ⟨sign, operand, heq, hsign⟩
  cases heq
  rw [h] at hsign
  cases hsign

theorem not_isSign_percent (e : Expr) : ¬ IsSign (.operator .percent [e]) :=
  not_isSign_operator rfl [e]

theorem not_isSign_between {op : Operator} (h : op.fixity = .between) (left right : Expr) :
    ¬ IsSign (left.between op right) := by
  rw [between]
  split
  · exact not_isSign_operator rfl _
  · exact not_isSign_operator (Operator.not_isSign_of_between h) _

/-- Only a sign gives its operand to an operator, and only to the range operator. -/
theorem place_eq {op : Operator} {left right : Expr} (h : op = .range → ¬ left.IsSign) :
    place op right left = .operator op [left, right] := by
  fun_induction place op right left with
  | case1 sign operand hsign _ =>
    rw [Bool.and_eq_true, decide_eq_true_eq] at hsign
    have hlt : 7 < op.strength := Operator.strength_of_isSign hsign.1 ▸ hsign.2
    exact absurd ⟨sign, operand, rfl, hsign.1⟩ (h (Operator.eq_range_of_lt hlt))
  | case2 => rfl
  | case3 => rfl

theorem join_eq {op : Operator} {left right : Expr} (h : op = .range → ¬ left.IsSign) :
    join left op right = left.between op right := by
  rw [join, between]
  split
  · exact place_eq (fun hadd => by cases hadd)
  · exact place_eq h

/-- The topmost operator, if there is one, is a sign or binds at least as tightly as `level`. -/
def Tight (level : Nat) : Expr → Prop
  | .apply (.operator op) _ => op.isSign = true ∨ level ≤ op.strength
  | _ => True

theorem graft_of_not_operator {op : Operator} {left right : Expr}
    (h : ∀ inner first others, right = .operator inner (first :: others) → False) :
    graft left op right = join left op right := by
  unfold graft
  split
  · exact (h _ _ _ rfl).elim
  · rfl

/-- An operator does not go past a tighter one. -/
theorem graft_of_tight {op : Operator} {left right : Expr} (h : Tight (op.strength + 1) right) :
    graft left op right = join left op right := by
  unfold graft
  split
  · next inner first others =>
    rw [if_neg]
    intro hdescends
    rcases h with hsign | hle
    · rw [Operator.not_descends_of_isSign hsign] at hdescends
      cases hdescends
    · unfold Operator.descends at hdescends
      split at hdescends
      · rw [decide_eq_true_eq] at hdescends
        omega
      · rw [decide_eq_true_eq] at hdescends
        omega
      · cases hdescends
  · rfl

theorem tight_between {op : Operator} {level : Nat} (h : level ≤ op.strength)
    (left right : Expr) : Tight level (left.between op right) := by
  rw [between]
  split
  · next hsubtract =>
    subst hsubtract
    exact .inr h
  · exact .inr h

/-- An operator goes past the node of an operator that binds no more tightly. -/
theorem graft_between {op other : Operator} {left x y : Expr} (hother : other.fixity = .between)
    (hle : other.strength ≤ op.strength) :
    graft left op (x.between other y) = (graft left op x).between other y := by
  rw [between, between]
  split
  · next hsubtract =>
    subst hsubtract
    have hadd : op.descends .add = true := Operator.descends_of_between rfl hle
    rw [graft, if_pos hadd]
  · rw [graft, if_pos (Operator.descends_of_between hother hle)]

theorem graft_percent {op : Operator} (h : 6 < op.strength) (left x : Expr) :
    graft left op (.operator .percent [x]) = .operator .percent [graft left op x] := by
  rw [graft, if_pos]
  exact decide_eq_true h

/-- What grafting an operator between operands gives is no sign. -/
theorem not_isSign_graft {op : Operator} {left right : Expr} (hop : op.fixity = .between)
    (hleft : op = .range → ¬ left.IsSign) : ¬ IsSign (graft left op right) := by
  unfold graft
  split
  · next inner first others =>
    split
    · next hdescends =>
      refine not_isSign_operator ?_ _
      cases hsign : inner.isSign with
      | false => rfl
      | true =>
        rw [Operator.not_descends_of_isSign hsign] at hdescends
        cases hdescends
    · rw [join_eq hleft]
      exact not_isSign_between hop _ _
  · rw [join_eq hleft]
    exact not_isSign_between hop _ _

/-- An operator passes everything that was grafted with one that binds no more tightly, down to the
left operand. By induction along the left edge, which both go down. -/
theorem graft_graft {op other : Operator} {left x y : Expr} (hop : op.fixity = .between)
    (hother : other.fixity = .between) (hle : other.strength ≤ op.strength)
    (hleft : op = .range → ¬ left.IsSign) (hx : other = .range → ¬ x.IsSign) :
    graft left op (graft x other y) = graft (graft left op x) other y := by
  have hgrafted : other = .range → ¬ IsSign (graft left op x) :=
    fun _ => not_isSign_graft hop hleft
  fun_induction graft x other y with
  | case1 inner first others hdescends ih =>
    rw [graft, if_pos (Operator.descends_trans hdescends hle), ih, graft, if_pos hdescends]
  | case2 inner first others hdescends =>
    rw [join_eq hx, graft_between hother hle, graft, if_neg hdescends, join_eq hgrafted]
  | case3 right hshape =>
    rw [join_eq hx, graft_between hother hle, ← join_eq hgrafted]
    exact (graft_of_not_operator hshape).symm

end Expr

/-! ## Climbing -/

/-- Climbing goes no further: the next item binds less tightly than `level`. -/
def Item.StopsAt (level : Nat) : List Item → Prop
  | [] => True
  | .percent :: _ => Operator.percent.strength < level
  | .binary op _ :: _ => op.strength < level

/-- Items behind an operand that a reader of runs can find: operators stand between operands, the
right operands are not themselves made of operators, and a range has no sign before it. -/
def Item.Proper : Expr → List Item → Prop
  | _, [] => True
  | left, .percent :: rest => Proper (.operator .percent [left]) rest
  | left, .binary op operand :: rest =>
    op.fixity = .between ∧ (op = .range → ¬ left.IsSign) ∧ (∀ level, operand.Tight level) ∧
      Proper operand rest

/-- Climbing from an operand, over all items that bind at least as tightly as `level`. -/
inductive Climbs : Nat → Expr → List Item → Expr → List Item → Prop
  | stop {level : Nat} {e : Expr} {items : List Item} (h : Item.StopsAt level items) :
    Climbs level e items e items
  | percent {level : Nat} {left e : Expr} {items rest : List Item}
    (hle : level ≤ Operator.percent.strength)
    (h : Climbs level (.operator .percent [left]) items e rest) :
    Climbs level left (.percent :: items) e rest
  | binary {level : Nat} {left operand right e : Expr} {op : Operator}
    {items between rest : List Item} (hle : level ≤ op.strength)
    (hright : Climbs (op.strength + 1) operand items right between)
    (h : Climbs level (left.between op right) between e rest) :
    Climbs level left (.binary op operand :: items) e rest

namespace Item

theorem stopsAt_of_lt {level : Nat} (h : 8 < level) (items : List Item) :
    StopsAt level items := by
  match items with
  | [] => trivial
  | .percent :: _ => exact Nat.lt_of_le_of_lt (Operator.strength_le _) h
  | .binary op _ :: _ => exact Nat.lt_of_le_of_lt op.strength_le h

theorem eq_nil_of_stopsAt_zero {items : List Item} (h : StopsAt 0 items) : items = [] := by
  match items with
  | [] => rfl
  | .percent :: _ => exact absurd h (Nat.not_lt_zero _)
  | .binary _ _ :: _ => exact absurd h (Nat.not_lt_zero _)

/-- The operand before the items matters only if it is a sign. -/
theorem Proper.of_not_isSign {left other : Expr} {items : List Item} (h : Proper left items)
    (hother : ¬ other.IsSign) : Proper other items := by
  induction items generalizing left other with
  | nil => trivial
  | cons item rest ih =>
    cases item with
    | percent => exact ih h (Expr.not_isSign_percent other)
    | binary op operand =>
      obtain ⟨hop, _, hoperand, hrest⟩ := h
      exact ⟨hop, fun _ => hother, hoperand, hrest⟩

end Item

open Item (Proper StopsAt)

namespace Expr

/-- An operator passes all items that climbing with its right operand leaves. By induction on the
items; the first one that is no percent sign is passed with all that stands behind it. -/
theorem graft_graftAll {op : Operator} {left e : Expr} {items : List Item}
    (hop : op.fixity = .between) (hleft : op = .range → ¬ left.IsSign)
    (hstops : StopsAt (op.strength + 1) items) (hproper : Proper e items) :
    graft left op (e.graftAll items) = (graft left op e).graftAll items := by
  induction items generalizing e with
  | nil => rfl
  | cons item rest ih =>
    cases item with
    | percent =>
      have hlt : 6 < op.strength + 1 := hstops
      have hrange : op = .range := Operator.eq_range_of_le hop (by omega)
      subst hrange
      have hrest : StopsAt (Operator.range.strength + 1) rest :=
        Item.stopsAt_of_lt (by decide) rest
      rw [graftAll, graftAll, ih hrest hproper, graft_percent (by decide)]
    | binary other operand =>
      obtain ⟨hother, hsign, _, _⟩ := hproper
      have hle : other.strength ≤ op.strength := Nat.le_of_lt_succ hstops
      rw [graftAll, graftAll, graft_graft hop hother hle hleft hsign]

end Expr

namespace Climbs

variable {level : Nat} {left e : Expr} {items rest : List Item}

theorem stopsAt (h : Climbs level left items e rest) : StopsAt level rest := by
  induction h with
  | stop h => exact h
  | percent _ _ ih => exact ih
  | binary _ _ _ _ ih => exact ih

theorem proper (h : Climbs level left items e rest) (hproper : Proper left items) :
    Proper e rest := by
  induction h with
  | stop _ => exact hproper
  | percent _ _ ih => exact ih hproper
  | binary _ _ _ ihright ih =>
    obtain ⟨hop, _, _, hrest⟩ := hproper
    exact ih ((ihright hrest).of_not_isSign (Expr.not_isSign_between hop _ _))

/-- Climbing leaves a tree whose topmost operator binds as tightly as was asked for. -/
theorem tight (h : Climbs level left items e rest) (htight : left.Tight level) : e.Tight level := by
  induction h with
  | stop _ => exact htight
  | percent hle _ ih => exact ih (.inr hle)
  | binary hle _ _ _ ih => exact ih (Expr.tight_between hle _ _)

/-- Climbing does not change the tree that grafting gives. By induction on the climb: the right
operand of an operator is climbed first, and the operator passes the items that are left. -/
theorem graftAll_eq (h : Climbs level left items e rest) (hproper : Proper left items) :
    left.graftAll items = e.graftAll rest := by
  induction h with
  | stop _ => rfl
  | percent _ _ ih => exact ih hproper
  | @binary level left operand right e op items between rest hle hright h ihright ih =>
    obtain ⟨hop, hleft, hoperand, hrest⟩ := hproper
    have hbetween : Proper right between := hright.proper hrest
    have htight : right.Tight (op.strength + 1) := hright.tight (hoperand _)
    calc left.graftAll (.binary op operand :: items)
        = Expr.graft left op (operand.graftAll items) := rfl
      _ = Expr.graft left op (right.graftAll between) := by rw [ihright hrest]
      _ = (Expr.graft left op right).graftAll between :=
        Expr.graft_graftAll hop hleft hright.stopsAt hbetween
      _ = (left.between op right).graftAll between := by
        rw [Expr.graft_of_tight htight, Expr.join_eq hleft]
      _ = e.graftAll rest := ih (hbetween.of_not_isSign (Expr.not_isSign_between hop _ _))

end Climbs

/-- Climbing over all items gives the tree that grafting gives. -/
theorem graftAll_of_climbs {left e : Expr} {items : List Item} (h : Climbs 0 left items e [])
    (hproper : Proper left items) : left.graftAll items = e :=
  h.graftAll_eq hproper

/-- Climbing comes to an end, and leaves no more items than there were; by induction on how many
there are, since the right operand of an operator takes some of them. -/
theorem exists_climbs (level : Nat) (left : Expr) (items : List Item) :
    ∃ e rest, Climbs level left items e rest ∧ rest.length ≤ items.length := by
  match items with
  | [] => exact ⟨left, [], .stop trivial, Nat.le_refl _⟩
  | .percent :: items =>
    by_cases hle : level ≤ Operator.percent.strength
    · obtain ⟨e, rest, hclimbs, hlength⟩ := exists_climbs level (.operator .percent [left]) items
      exact ⟨e, rest, .percent hle hclimbs, Nat.le_succ_of_le hlength⟩
    · exact ⟨left, .percent :: items, .stop (Nat.lt_of_not_le hle), Nat.le_refl _⟩
  | .binary op operand :: items =>
    by_cases hle : level ≤ op.strength
    · obtain ⟨right, between, hright, hbetween⟩ := exists_climbs (op.strength + 1) operand items
      obtain ⟨e, rest, hclimbs, hlength⟩ := exists_climbs level (left.between op right) between
      refine ⟨e, rest, .binary hle hright hclimbs, ?_⟩
      rw [List.length_cons]
      omega
    · exact ⟨left, .binary op operand :: items, .stop (Nat.lt_of_not_le hle), Nat.le_refl _⟩
termination_by items.length

end Spreadsheet
