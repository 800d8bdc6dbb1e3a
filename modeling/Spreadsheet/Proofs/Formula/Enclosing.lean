import Spreadsheet.Proofs.Formula.Acceptance
import Spreadsheet.Proofs.Formula.Grouping
import Spreadsheet.Proofs.Formula.Segments

/-!
# Parentheses around a part of a formula

Parentheses may be put around any operand and around any argument of a call, and nothing changes in
the tree but that they are in it. By induction on the derivation of the tokens: a segment lies in
one part of every phrase, and where it is all of that part, the operand or the run becomes a group.
Of the trees on the way it is their skeletons that stay the same, since these are what grafting
works on.

## Main results

* `Grammar.Run.enclosed`: a run with parentheses put in derives from the grammar, with the same tree
  but for groups.
* `Expr.exists_ofTokens_enclosed`: tokens with parentheses put in are read as the same tree but for
  groups.
-/

namespace Spreadsheet

open Spreadsheet.Group (Balanced Undivided nesting)

/-- Tokens with any number of pairs of parentheses put around them. -/
inductive Enclosed (ts : List Token) : List Token → Prop
  | none : Enclosed ts ts
  | pair {first last : Token} {us : List Token} (hopens : first.opens = true) (h : Enclosed ts us)
    (hcloses : last.closes = true) : Enclosed ts (first :: (us ++ [last]))

namespace Grammar

variable {segment new : List Token}

/-! ## All of an operand or a run -/

theorem Run.of_primary {ts : List Token} {e : Expr} (h : Primary ts e) : Run ts e [] := by
  rw [← List.append_nil ts]
  exact .mk (.plain h) .nil

/-- An operand with parentheses around it is one. -/
theorem Primary.enclosed_self {e : Expr} (h : Primary segment e) (hnew : Enclosed segment new) :
    ∃ e', Primary new e' ∧ e'.ungrouped = e.ungrouped := by
  induction hnew with
  | none => exact ⟨e, h, rfl⟩
  | pair hopens _ hcloses ih =>
    obtain ⟨e', hprimary, htree⟩ := ih
    exact ⟨.group e', .group hopens (.of_primary hprimary) hcloses, by simpa using htree⟩

/-- A run with parentheses around it is one. -/
theorem Run.enclosed_self {e : Expr} {items : List Item} (h : Run segment e items)
    (hnew : Enclosed segment new) : ∃ e' items', Run new e' items' ∧
      (e'.graftAll items').ungrouped = (e.graftAll items).ungrouped := by
  induction hnew with
  | none => exact ⟨e, items, h, rfl⟩
  | pair hopens _ hcloses ih =>
    obtain ⟨e', items', hrun, htree⟩ := ih
    exact ⟨.group (e'.graftAll items'), [], .of_primary (.group hopens hrun hcloses),
      by simpa [Expr.graftAll] using htree⟩

/-! ## Parts of operands and runs -/

theorem Primary.skeleton {ts : List Token} {e : Expr} (h : Primary ts e) :
    e.skeleton = .group e.ungrouped := by
  cases h <;> exact Expr.skeleton_eq_group (by simp)

theorem Behind.kind_head {t : Token} {ts : List Token} {items : List Item}
    (h : Behind (t :: ts) items) : t.kind = .operator := by
  cases h with
  | percent hkind _ _ => exact hkind
  | binary hkind _ _ _ => exact hkind

/-- Where a part of a run can be put in parentheses, so can all of it. -/
theorem Run.enclosed_of_inside {ts before after : List Token} {e : Expr} {items : List Item}
    (h : Run ts e items) (hts : ts = before ++ (segment ++ after))
    (hsegment : Segment before segment after) (hnew : Enclosed segment new)
    (hinside : Inside before segment → ∃ e' items', Run (before ++ (new ++ after)) e' items' ∧
      e'.skeleton = e.skeleton ∧ items'.map Item.skeleton = items.map Item.skeleton) :
    ∃ e' items', Run (before ++ (new ++ after)) e' items' ∧
      (e'.graftAll items').ungrouped = (e.graftAll items).ungrouped := by
  by_cases hin : Inside before segment
  · obtain ⟨e', items', hrun, he, hitems⟩ := hinside hin
    exact ⟨e', items', hrun, Expr.ungrouped_graftAll_eq he hitems⟩
  · rw [Inside, not_or, Classical.not_not] at hin
    have hundivided : Undivided (before ++ (segment ++ after)) := hts ▸ h.phrase.undivided
    obtain ⟨hbefore, hafter⟩ := hsegment.whole_of_run hin.1 hundivided hin.2
    subst hbefore hafter
    rw [List.nil_append, List.append_nil] at hts ⊢
    exact (hts ▸ h).enclosed_self hnew

mutual

/-- Parentheses put into an operand, or around it. -/
theorem Primary.enclosed {ts before after : List Token} {e : Expr} (h : Primary ts e)
    (hts : ts = before ++ (segment ++ after)) (hsegment : Segment before segment after)
    (hinside : Inside before segment) (hnew : Enclosed segment new) :
    ∃ e', Primary (before ++ (new ++ after)) e' ∧ e'.ungrouped = e.ungrouped := by
  by_cases hwhole : before = [] ∧ after = []
  · obtain ⟨rfl, rfl⟩ := hwhole
    rw [List.nil_append, List.append_nil] at hts ⊢
    exact (hts ▸ h).enclosed_self hnew
  · obtain ⟨u, before', rfl⟩ := hinside.exists_cons_of_primary hsegment (hts ▸ h.phrase) hwhole
    match h with
    | .constant _ _ => simp [hsegment.ne_nil] at hts
    | .cell _ => simp [hsegment.ne_nil] at hts
    | @Primary.call t first last f inner es hkind hname hopens h hcloses =>
      obtain ⟨rfl, hrest⟩ := List.cons.inj hts
      cases before' with
      | nil =>
        have hname : Segment ([] ++ [t]) segment after := hsegment
        exact absurd hkind hname.not_function_before
      | cons u' before' =>
        obtain ⟨rfl, hinner⟩ := List.cons.inj hrest
        obtain ⟨after', rfl, hargs⟩ := Group.inside_of_group h.phrase.balanced hcloses
          hsegment.undivided hsegment.ne_nil hinner
        obtain ⟨es', harguments, htrees⟩ :=
          h.enclosed hargs hsegment.of_cons.of_cons.of_append_right hnew
        refine ⟨.apply (.builtin f) es', ?_, by simp [htrees]⟩
        have hcall := Primary.call hkind hname hopens harguments hcloses
        simpa using hcall
    | @Primary.group first last inner e items hopens h hcloses =>
      obtain ⟨rfl, hinner⟩ := List.cons.inj hts
      obtain ⟨after', rfl, hrun⟩ := Group.inside_of_group h.phrase.undivided.balanced hcloses
        hsegment.undivided hsegment.ne_nil hinner
      have hpart : Segment before' segment after' := hsegment.of_cons.of_append_right
      obtain ⟨e', items', hrun', htree⟩ := h.enclosed_of_inside hrun hpart hnew fun hinside =>
        h.enclosed_inside hrun hpart hinside hnew
      refine ⟨.group (e'.graftAll items'), ?_, by simpa using htree⟩
      have hgroup := Primary.group hopens hrun' hcloses
      simpa using hgroup

theorem Operand.enclosed {ts before after : List Token} {e : Expr} (h : Operand ts e)
    (hts : ts = before ++ (segment ++ after)) (hsegment : Segment before segment after)
    (hinside : Inside before segment) (hnew : Enclosed segment new) :
    ∃ e', Operand (before ++ (new ++ after)) e' ∧ e'.skeleton = e.skeleton := by
  match h with
  | .plain h =>
    obtain ⟨e', hprimary, htree⟩ := h.enclosed hts hsegment hinside hnew
    exact ⟨e', .plain hprimary, by rw [hprimary.skeleton, h.skeleton, htree]⟩
  | .signed hkind hsign h =>
    obtain ⟨before', rfl, hts'⟩ := hinside.ne_nil_of_operator hts hsegment.ne_nil hkind
    obtain ⟨e', hprimary, htree⟩ :=
      h.enclosed hts' hsegment.of_cons (hinside.of_cons (by simp [hkind])) hnew
    exact ⟨_, .signed hkind hsign hprimary, by simp [hprimary.skeleton, h.skeleton, htree]⟩

/-- Parentheses put into a run, but not around all of it. -/
theorem Run.enclosed_inside {ts before after : List Token} {e : Expr} {items : List Item}
    (h : Run ts e items) (hts : ts = before ++ (segment ++ after))
    (hsegment : Segment before segment after) (hinside : Inside before segment)
    (hnew : Enclosed segment new) : ∃ e' items', Run (before ++ (new ++ after)) e' items' ∧
      e'.skeleton = e.skeleton ∧ items'.map Item.skeleton = items.map Item.skeleton := by
  match h with
  | @Run.mk operand behind e items hoperand hbehind =>
    have hbalanced : Balanced operand := hoperand.undivided.balanced
    rcases segment_of_append hts with ⟨after', hts', hafter⟩ | ⟨before', hbefore, hts'⟩ |
      ⟨front, back, hfront, hback, hcut, hoperand', hbehind'⟩
    · subst hafter
      obtain ⟨e', hoperand', htree⟩ :=
        hoperand.enclosed hts' hsegment.of_append_right hinside hnew
      rw [← List.append_assoc new, ← List.append_assoc before]
      exact ⟨e', items, .mk hoperand' hbehind, htree, rfl⟩
    · subst hbefore
      obtain ⟨items', hbehind', htrees⟩ :=
        hbehind.enclosed hts' hsegment.of_append_left (hinside.of_append hbalanced) hnew
      rw [List.append_assoc]
      exact ⟨e, items', .mk hoperand hbehind', rfl, htrees⟩
    · exfalso
      subst hcut
      obtain ⟨hbefore, hundivided⟩ :=
        Group.balanced_of_append (hoperand' ▸ hbalanced) hsegment.undivided
      rcases hinside with hprimary | hdeep
      · obtain ⟨t, u, rest, _, _, hrest, hopens⟩ :=
          hprimary.call_of_append hundivided hfront hback
        rw [hbehind', hrest] at hbehind
        have hoperator : u.kind = .operator := hbehind.kind_head
        rw [Token.kind_of_opens hopens] at hoperator
        cases hoperator
      · exact hdeep hbefore

theorem Behind.enclosed {ts before after : List Token} {items : List Item} (h : Behind ts items)
    (hts : ts = before ++ (segment ++ after)) (hsegment : Segment before segment after)
    (hinside : Inside before segment) (hnew : Enclosed segment new) :
    ∃ items', Behind (before ++ (new ++ after)) items' ∧
      items'.map Item.skeleton = items.map Item.skeleton := by
  match h with
  | .nil => exact absurd hts (by simp [hsegment.ne_nil])
  | .percent hkind htext h =>
    obtain ⟨before', rfl, hts'⟩ := hinside.ne_nil_of_operator hts hsegment.ne_nil hkind
    obtain ⟨items', hbehind, htrees⟩ :=
      h.enclosed hts' hsegment.of_cons (hinside.of_cons (by simp [hkind])) hnew
    exact ⟨_, .percent hkind htext hbehind, by simp [htrees]⟩
  | .binary hkind hop htext h =>
    obtain ⟨before', rfl, hts'⟩ := hinside.ne_nil_of_operator hts hsegment.ne_nil hkind
    obtain ⟨e', items', hrun, htree, htrees⟩ :=
      h.enclosed_inside hts' hsegment.of_cons (hinside.of_cons (by simp [hkind])) hnew
    exact ⟨_, .binary hkind hop htext hrun, by simp [Item.skeleton, htree, htrees]⟩

theorem Arguments.enclosed {ts before after : List Token} {es : List Expr} (h : Arguments ts es)
    (hts : ts = before ++ (segment ++ after)) (hsegment : Segment before segment after)
    (hnew : Enclosed segment new) : ∃ es', Arguments (before ++ (new ++ after)) es' ∧
      Expr.ungroupedAll es' = Expr.ungroupedAll es := by
  match h with
  | .none => exact absurd hts (by simp [hsegment.ne_nil])
  | .some h =>
    obtain ⟨es', hseveral, htrees⟩ := h.enclosed hts hsegment hnew
    exact ⟨es', .some hseveral, htrees⟩

theorem Several.enclosed {ts before after : List Token} {es : List Expr} (h : Several ts es)
    (hts : ts = before ++ (segment ++ after)) (hsegment : Segment before segment after)
    (hnew : Enclosed segment new) : ∃ es', Several (before ++ (new ++ after)) es' ∧
      Expr.ungroupedAll es' = Expr.ungroupedAll es := by
  match h with
  | .last h =>
    obtain ⟨e', items', hrun, htree⟩ := h.enclosed_of_inside hts hsegment hnew fun hinside =>
      h.enclosed_inside hts hsegment hinside hnew
    exact ⟨_, .last hrun, by simp [htree]⟩
  | @Several.cons t first rest e items es h hseparates hrest =>
    rcases segment_of_append hts with ⟨after', hts', hafter⟩ | ⟨before', hbefore, hts'⟩ |
      ⟨front, back, _, hback, hcut, hfirst, hothers⟩
    · subst hafter
      obtain ⟨e', items', hrun, htree⟩ :=
        h.enclosed_of_inside hts' hsegment.of_append_right hnew fun hinside =>
          h.enclosed_inside hts' hsegment.of_append_right hinside hnew
      rw [← List.append_assoc new, ← List.append_assoc before]
      exact ⟨_, .cons hrun hseparates hrest, by simp [htree]⟩
    · subst hbefore
      cases before' with
      | nil =>
        obtain ⟨u, others, hcons⟩ := List.exists_cons_of_ne_nil hsegment.ne_nil
        rw [hcons] at hts'
        obtain ⟨rfl, _⟩ := List.cons.inj hts'
        have hnot : ¬ Undivided ([] ++ t :: others) :=
          Group.not_undivided_of_ends Group.undivided_nil (.inr hseparates)
        exact absurd (hcons ▸ hsegment.undivided) hnot
      | cons u before' =>
        obtain ⟨rfl, hothers⟩ := List.cons.inj hts'
        obtain ⟨es', hseveral, htrees⟩ :=
          hrest.enclosed hothers hsegment.of_append_left.of_cons hnew
        rw [List.append_assoc]
        exact ⟨_, .cons h hseparates hseveral, by simp [htrees]⟩
    · exfalso
      subst hcut
      obtain ⟨u, others, rfl⟩ := List.exists_cons_of_ne_nil hback
      obtain ⟨rfl, _⟩ := List.cons.inj hothers
      have hbalanced : Balanced first := h.phrase.undivided.balanced
      have hfront : Undivided front :=
        (Group.balanced_of_append (hfirst ▸ hbalanced) hsegment.undivided).2
      exact Group.not_undivided_of_ends hfront (.inr hseparates) hsegment.undivided

end

end Grammar

/-- Tokens with parentheses put in around one segment are read as the same tree but for groups. -/
theorem Expr.exists_ofTokens_enclosed {before segment after new : List Token} {limit limit' : Nat}
    {e : Expr} (h : ofTokens (before ++ (segment ++ after)) limit = .ok e)
    (hsegment : Segment before segment after) (hnew : Enclosed segment new)
    (hlimit : nesting (before ++ (new ++ after)) ≤ limit') :
    ∃ e', ofTokens (before ++ (new ++ after)) limit' = .ok e' ∧ e'.ungrouped = e.ungrouped := by
  obtain ⟨first, items, hrun, rfl⟩ := derives_of_ofTokens h
  obtain ⟨first', items', hrun', htree⟩ := hrun.enclosed_of_inside rfl hsegment hnew fun hinside =>
    hrun.enclosed_inside rfl hsegment hinside hnew
  exact ⟨first'.graftAll items', (ofTokens_eq_ok_iff hlimit).2 ⟨first', items', hrun', rfl⟩, htree⟩

end Spreadsheet
