import Spreadsheet.Proofs.Formula.Climb

/-!
# Trees without their groups

Groups say how a formula was written, and then they have done their work. Two trees are the same but
for groups if they are the same once all groups are dropped. That is too little to know about trees
that are still to be grafted, since a group around a sign or an operator keeps others from going
into it. So there the operators that can be gone into are kept in sight, and everything else is
taken as a group: that is the skeleton of a tree, and grafting works on skeletons.

## Main results

* `skeleton_graftAll`: the skeleton of a grafted tree is grafted from skeletons.
* `ungrouped_eq_of_skeleton_eq`: trees with one skeleton are the same but for groups.
-/

namespace Spreadsheet

namespace Expr

mutual

/-- A tree with all its groups dropped. -/
def ungrouped : Expr → Expr
  | .constant v => .constant v
  | .reference name => .reference name
  | .apply operation args => .apply operation (ungroupedAll args)
  | .group inner => inner.ungrouped

/-- Several trees with all their groups dropped. -/
def ungroupedAll : List Expr → List Expr
  | [] => []
  | e :: rest => e.ungrouped :: ungroupedAll rest

end

mutual

/-- The operators at the top of a tree, and below them groups without groups inside. -/
def skeleton : Expr → Expr
  | .apply (.operator op) args => .operator op (skeletonAll args)
  | e => .group e.ungrouped

/-- The skeletons of several trees. -/
def skeletonAll : List Expr → List Expr
  | [] => []
  | e :: rest => e.skeleton :: skeletonAll rest

end

@[simp] theorem ungrouped_constant (v : Value) : (constant v).ungrouped = .constant v := by
  rw [ungrouped]

@[simp] theorem ungrouped_reference (name : String) :
    (reference name).ungrouped = .reference name := by
  rw [ungrouped]

@[simp] theorem ungrouped_apply (operation : Operation) (args : List Expr) :
    (apply operation args).ungrouped = .apply operation (ungroupedAll args) := by
  rw [ungrouped]

@[simp] theorem ungrouped_group (inner : Expr) : (group inner).ungrouped = inner.ungrouped := by
  rw [ungrouped]

@[simp] theorem ungroupedAll_nil : ungroupedAll [] = [] := by
  rw [ungroupedAll]

@[simp] theorem ungroupedAll_cons (e : Expr) (rest : List Expr) :
    ungroupedAll (e :: rest) = e.ungrouped :: ungroupedAll rest := by
  rw [ungroupedAll]

theorem length_ungroupedAll (es : List Expr) : (ungroupedAll es).length = es.length := by
  induction es with
  | nil => rfl
  | cons e rest ih => simp [ih]

@[simp] theorem skeleton_operator (op : Operator) (args : List Expr) :
    (operator op args).skeleton = .operator op (skeletonAll args) := by
  rw [skeleton]

@[simp] theorem skeletonAll_nil : skeletonAll [] = [] := by
  rw [skeletonAll]

@[simp] theorem skeletonAll_cons (e : Expr) (rest : List Expr) :
    skeletonAll (e :: rest) = e.skeleton :: skeletonAll rest := by
  rw [skeletonAll]

mutual

/-- Without groups there are no groups to drop. -/
theorem ungrouped_ungrouped (e : Expr) : e.ungrouped.ungrouped = e.ungrouped := by
  match e with
  | .constant v => simp
  | .reference name => simp
  | .apply operation args => simp [ungroupedAll_ungroupedAll args]
  | .group inner => simp [ungrouped_ungrouped inner]

theorem ungroupedAll_ungroupedAll (es : List Expr) :
    ungroupedAll (ungroupedAll es) = ungroupedAll es := by
  match es with
  | [] => simp
  | e :: rest => simp [ungrouped_ungrouped e, ungroupedAll_ungroupedAll rest]

end

/-- Anything but an operator is a group in the skeleton. -/
theorem skeleton_eq_group {e : Expr} (h : ∀ op args, e ≠ .operator op args) :
    e.skeleton = .group e.ungrouped := by
  unfold skeleton
  split
  · next op args => exact absurd rfl (h op args)
  · rfl

mutual

/-- The skeleton of a tree is the tree but for groups. -/
theorem ungrouped_skeleton (e : Expr) : e.skeleton.ungrouped = e.ungrouped := by
  match e with
  | .apply (.operator op) args => simp [ungroupedAll_skeletonAll args]
  | .constant v => simp [skeleton_eq_group]
  | .reference name => simp [skeleton_eq_group]
  | .apply (.builtin f) args => simp [skeleton_eq_group, ungroupedAll_ungroupedAll args]
  | .group inner => simp [skeleton_eq_group, ungrouped_ungrouped inner]

theorem ungroupedAll_skeletonAll (es : List Expr) :
    ungroupedAll (skeletonAll es) = ungroupedAll es := by
  match es with
  | [] => simp
  | e :: rest => simp [ungrouped_skeleton e, ungroupedAll_skeletonAll rest]

end

/-- Trees with one skeleton are the same but for groups. -/
theorem ungrouped_eq_of_skeleton_eq {e e' : Expr} (h : e'.skeleton = e.skeleton) :
    e'.ungrouped = e.ungrouped := by
  rw [← ungrouped_skeleton e', h, ungrouped_skeleton]

/-! ## Grafting -/

/-- The skeleton of an operator with operands is that operator with as many. -/
theorem skeleton_eq_operator {e : Expr} {op : Operator} {args : List Expr}
    (h : e.skeleton = .operator op args) :
    ∃ args', e = .operator op args' ∧ args = skeletonAll args' := by
  match e with
  | .apply (.operator op') args' =>
    rw [skeleton_operator] at h
    cases h
    exact ⟨args', rfl, rfl⟩
  | .constant v =>
    rw [skeleton_eq_group (by simp)] at h
    cases h
  | .reference name =>
    rw [skeleton_eq_group (by simp)] at h
    cases h
  | .apply (.builtin f) args' =>
    rw [skeleton_eq_group (by simp)] at h
    cases h
  | .group inner =>
    rw [skeleton_eq_group (by simp)] at h
    cases h

theorem skeletonAll_eq_cons {es others : List Expr} {first : Expr}
    (h : first :: others = skeletonAll es) :
    ∃ e rest, es = e :: rest ∧ first = e.skeleton ∧ others = skeletonAll rest := by
  cases es with
  | nil => simp at h
  | cons e rest =>
    rw [skeletonAll_cons, List.cons.injEq] at h
    exact ⟨e, rest, rfl, h⟩

theorem skeletonAll_eq_nil {es : List Expr} (h : [] = skeletonAll es) : es = [] := by
  cases es with
  | nil => rfl
  | cons e rest => simp at h

theorem place_of_not_operator {op : Operator} {right left : Expr}
    (h : ∀ sign operand, left = .operator sign [operand] → False) :
    place op right left = .operator op [left, right] := by
  unfold place
  split
  · next sign operand => exact (h sign operand rfl).elim
  · rfl

theorem skeleton_place (op : Operator) (right left : Expr) :
    (place op right left).skeleton = place op right.skeleton left.skeleton := by
  fun_induction place op right left with
  | case1 sign operand hsign ih => simp [place, hsign, ih]
  | case2 sign operand hsign => simp [place, hsign]
  | case3 left hleft =>
    rw [place_of_not_operator]
    · simp
    · intro sign operand hskeleton
      obtain ⟨args, rfl, hargs⟩ := skeleton_eq_operator hskeleton
      obtain ⟨e, rest, rfl, _, hrest⟩ := skeletonAll_eq_cons hargs
      rw [skeletonAll_eq_nil hrest] at hleft
      exact hleft sign e rfl

theorem skeleton_join (left : Expr) (op : Operator) (right : Expr) :
    (join left op right).skeleton = join left.skeleton op right.skeleton := by
  rw [join, join]
  split
  · rw [skeleton_place, skeleton_operator, skeletonAll_cons, skeletonAll_nil]
  · exact skeleton_place op right left

/-- The skeleton of a grafted tree is grafted from skeletons. -/
theorem skeleton_graft (left : Expr) (op : Operator) (right : Expr) :
    (graft left op right).skeleton = graft left.skeleton op right.skeleton := by
  fun_induction graft left op right with
  | case1 inner first others hdescends ih => simp [graft, hdescends, ih]
  | case2 inner first others hdescends => simp [graft, hdescends, skeleton_join]
  | case3 right hright =>
    rw [skeleton_join, graft_of_not_operator]
    intro inner first others hskeleton
    obtain ⟨args, rfl, hargs⟩ := skeleton_eq_operator hskeleton
    obtain ⟨e, rest, rfl, _, _⟩ := skeletonAll_eq_cons hargs
    exact hright inner e rest rfl

end Expr

/-- An item with the skeleton of its operand. -/
def Item.skeleton : Item → Item
  | .percent => .percent
  | .binary op operand => .binary op operand.skeleton

/-- The skeleton of an operand with items behind it is grafted from skeletons. -/
theorem Expr.skeleton_graftAll (left : Expr) (items : List Item) :
    (left.graftAll items).skeleton = left.skeleton.graftAll (items.map Item.skeleton) := by
  fun_induction graftAll left items with
  | case1 left => rfl
  | case2 left rest ih => simpa [graftAll, Item.skeleton] using ih
  | case3 left op operand rest ih => simp [graftAll, Item.skeleton, skeleton_graft, ih]

/-- Operands and items with the same skeletons are grafted into trees that are the same but for
groups. -/
theorem Expr.ungrouped_graftAll_eq {left left' : Expr} {items items' : List Item}
    (hleft : left'.skeleton = left.skeleton)
    (hitems : items'.map Item.skeleton = items.map Item.skeleton) :
    (left'.graftAll items').ungrouped = (left.graftAll items).ungrouped := by
  apply ungrouped_eq_of_skeleton_eq
  rw [skeleton_graftAll, skeleton_graftAll, hleft, hitems]

end Spreadsheet
