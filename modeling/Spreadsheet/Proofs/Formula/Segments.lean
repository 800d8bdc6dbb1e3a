import Spreadsheet.Proofs.Formula.Phrases

/-!
# Segments

A segment is a part of some tokens that stands for itself: an operand, an argument of a call, or the
run inside a group. Its parentheses match, and so do those of every phrase of the tokens. So
wherever tokens are put together of several phrases, a segment lies in one of them.

## Main results

* `Segment`: the parts of tokens that parentheses can be put around.
* `segment_of_append`: where a segment of two lists lies.
* `Group.inside_of_group`: a segment that begins in a group ends there.
* `Phrase.Primary.call_of_append`: an operand cannot be cut in two undivided parts.
-/

namespace Spreadsheet

open Spreadsheet.Group (Balanced Undivided openAfter)

/-- A part of some tokens that parentheses can be put around: an operand without its sign, or a run
from a parenthesis or comma to the next one, such as an argument of a call. Where nothing stands
before a run and nothing behind it, it is all of the tokens. -/
inductive Segment (before ts after : List Token) : Prop
  | operand (h : Phrase.Primary ts) (hname : ∀ t ∈ before.getLast?, t.kind ≠ .function)
  | run (h : Phrase.Run ts) (hbefore : ∀ t ∈ before.getLast?, t.opens = true ∨ t.separates = true)
    (hafter : ∀ t ∈ after.head?, t.closes = true ∨ t.separates = true)

variable {t : Token} {ts us before segment after front back new : List Token}

/-! ## Where undivided tokens lie -/

namespace Group

/-- Tokens that end within undivided ones are balanced before them and undivided within them. -/
theorem balanced_of_append (h : Balanced (before ++ front))
    (hundivided : Undivided (front ++ back)) : Balanced before ∧ Undivided front := by
  obtain ⟨level, hbefore, hfront⟩ := exists_of_openAfter_append h
  obtain ⟨inside, hinside, _⟩ := exists_of_openAfter_append hundivided
  have hlevel : openAfter (fun _ => false) (0 + level) front = some (inside + level) :=
    openAfter_add hinside fun _ _ ht => by cases ht
  rw [Nat.zero_add, hfront, Option.some.injEq] at hlevel
  obtain ⟨hin, hout⟩ : inside = 0 ∧ level = 0 := by omega
  rw [hin] at hinside
  rw [hout] at hbefore
  exact ⟨hbefore, hinside⟩

/-- Outside all groups neither a closing parenthesis nor a comma can stand. -/
theorem not_undivided_of_ends (hfront : Undivided front)
    (ht : t.closes = true ∨ t.separates = true) : ¬ Undivided (front ++ t :: back) := by
  intro h
  rw [Undivided, openAfter_append, hfront, Option.bind_some, openAfter, if_pos ⟨rfl, ht⟩] at h
  cases h

/-- Behind an opening parenthesis or a comma some group is open. -/
theorem not_balanced_of_begins (hundivided : Undivided (front ++ t :: back))
    (ht : t.opens = true ∨ t.separates = true) : ¬ Balanced (front ++ [t]) := by
  intro hbalanced
  obtain ⟨level, hfront, hback⟩ := exists_of_openAfter_append hundivided
  obtain ⟨level', hfront', hlast⟩ := exists_of_openAfter_append hbalanced
  have hsame : openAfter (fun _ => false) (0 + 0) front = some (level + 0) :=
    openAfter_add hfront fun _ _ ht => by cases ht
  rw [Nat.add_zero, Nat.add_zero, hfront', Option.some.injEq] at hsame
  subst hsame
  rcases ht with hopens | hseparates
  · rw [openAfter_of_opens hopens rfl, openAfter_nil, Option.some.injEq] at hlast
    omega
  · rw [openAfter_cons (by simp [Token.not_closes_of_separates hseparates]),
      levelBehind_of_separates hseparates, openAfter_nil, Option.some.injEq] at hlast
    rw [hlast, openAfter, if_pos ⟨rfl, .inr hseparates⟩] at hback
    cases hback

/-- A group is not closed before its last parenthesis. -/
theorem not_undivided_of_prefix {first last : Token} (hopens : first.opens = true)
    (hbalanced : Balanced ts) (h : front ++ back = ts ++ [last]) (hback : back ≠ []) :
    ¬ Undivided (first :: front) := by
  intro hundivided
  obtain ⟨rest, x, hrest⟩ := (List.eq_nil_or_concat back).resolve_left hback
  rw [hrest, List.concat_eq_append, ← List.append_assoc] at h
  obtain ⟨hts, _⟩ := List.append_inj' h rfl
  rw [← hts] at hbalanced
  obtain ⟨level, hfront, _⟩ := exists_of_openAfter_append hbalanced
  have hinside : openAfter Token.separates (0 + 1) front = some (level + 1) :=
    openAfter_add hfront fun hzero => by cases hzero
  rw [Undivided, openAfter_of_opens hopens (Token.not_separates_of_opens hopens), hinside,
    Option.some.injEq] at hundivided
  omega

/-- Undivided tokens in a group do not reach over its last parenthesis. -/
theorem inside_of_group {last : Token} (hbalanced : Balanced ts) (hcloses : last.closes = true)
    (hsegment : Undivided segment) (hne : segment ≠ [])
    (h : ts ++ [last] = before ++ (segment ++ after)) :
    ∃ after', after = after' ++ [last] ∧ ts = before ++ (segment ++ after') := by
  rcases List.eq_nil_or_concat after with hnil | ⟨after', x, hafter⟩
  · obtain ⟨front, x, hfront⟩ := (List.eq_nil_or_concat segment).resolve_left hne
    rw [List.concat_eq_append] at hfront
    rw [hnil, hfront, List.append_nil, ← List.append_assoc] at h
    obtain ⟨hts, hlast⟩ := List.append_inj' h rfl
    rw [hts] at hbalanced
    rw [hfront, ← hlast] at hsegment
    have hundivided : Undivided front := (balanced_of_append hbalanced hsegment).2
    exact absurd hsegment (not_undivided_of_ends hundivided (.inl hcloses))
  · rw [List.concat_eq_append] at hafter
    rw [hafter, ← List.append_assoc segment, ← List.append_assoc before] at h
    obtain ⟨hts, hlast⟩ := List.append_inj' h rfl
    exact ⟨after', by rw [hafter, hlast], hts⟩

end Group

/-- A segment of two lists put together lies in the first one or in the second one, or it begins in
the first one and ends in the second one. -/
theorem segment_of_append (h : ts ++ us = before ++ (segment ++ after)) :
    (∃ after', ts = before ++ (segment ++ after') ∧ after = after' ++ us) ∨
    (∃ before', before = ts ++ before' ∧ us = before' ++ (segment ++ after)) ∨
    (∃ front back, front ≠ [] ∧ back ≠ [] ∧ segment = front ++ back ∧ ts = before ++ front ∧
      us = back ++ after) := by
  rcases List.append_eq_append_iff.1 h with ⟨before', hbefore, hus⟩ | ⟨front, hts, hrest⟩
  · exact .inr (.inl ⟨before', hbefore, hus⟩)
  · rcases List.append_eq_append_iff.1 hrest with ⟨after', hfront, hafter⟩ | ⟨back, hseg, hus⟩
    · exact .inl ⟨after', by rw [hts, hfront], hafter⟩
    · by_cases hback : back = []
      · rw [hback, List.append_nil] at hseg
        exact .inl ⟨[], by rw [hts, hseg, List.append_nil],
          by rw [hus, hback, List.nil_append, List.nil_append]⟩
      · by_cases hfront : front = []
        · rw [hfront, List.nil_append] at hseg
          exact .inr (.inl ⟨[], by rw [hts, hfront, List.append_nil, List.append_nil],
            by rw [hus, hseg, List.nil_append]⟩)
        · exact .inr (.inr ⟨front, back, hfront, hback, hseg, hts, hus⟩)

/-! ## Where operands and runs lie -/

namespace Phrase

theorem Primary.kind_of_singleton (h : Primary [t]) : t.kind = .constant ∨ t.kind = .cell := by
  generalize hts : [t] = ts at h
  cases h with
  | constant hkind =>
    cases hts
    exact .inl hkind
  | cell hkind =>
    cases hts
    exact .inr hkind
  | call _ _ _ _ => simp at hts
  | group _ _ _ => simp at hts

/-- An operand without its sign begins with no operator. -/
theorem Primary.not_operator (h : Primary (t :: ts)) : t.kind ≠ .operator := by
  generalize hts : t :: ts = us at h
  cases h with
  | constant hkind =>
    cases hts
    simp [hkind]
  | cell hkind =>
    cases hts
    simp [hkind]
  | call hkind _ _ _ =>
    cases hts
    simp [hkind]
  | group hopens _ _ =>
    cases hts
    simp [Token.kind_of_opens hopens]

/-- Undivided tokens at the front of an operand are all of it, or the name of a call. -/
theorem Primary.call_of_append (h : Primary (front ++ back)) (hundivided : Undivided front)
    (hfront : front ≠ []) (hback : back ≠ []) :
    ∃ t u rest, front = [t] ∧ t.kind = .function ∧ back = u :: rest ∧ u.opens = true := by
  obtain ⟨t, front, rfl⟩ := List.exists_cons_of_ne_nil hfront
  generalize hts : t :: front ++ back = ts at h
  cases h with
  | constant _ => simp [hback] at hts
  | cell _ => simp [hback] at hts
  | call hkind hopens harguments _ =>
    cases front with
    | nil =>
      cases hts
      exact ⟨t, _, _, rfl, hkind, rfl, hopens⟩
    | cons u front =>
      simp only [List.cons_append, List.cons.injEq] at hts
      obtain ⟨rfl, rfl, hinner⟩ := hts
      rw [Group.undivided_cons_of_kind (by simp [hkind])] at hundivided
      exact absurd hundivided
        (Group.not_undivided_of_prefix hopens harguments.balanced hinner hback)
  | group hopens hrun _ =>
    simp only [List.cons_append, List.cons.injEq] at hts
    obtain ⟨rfl, hinner⟩ := hts
    exact absurd hundivided
      (Group.not_undivided_of_prefix hopens hrun.undivided.balanced hinner hback)

end Phrase

namespace Segment

theorem undivided (h : Segment before ts after) : Undivided ts := by
  cases h with
  | operand h _ => exact h.undivided
  | run h _ _ => exact h.undivided

theorem ne_nil (h : Segment before ts after) : ts ≠ [] := by
  cases h with
  | operand h _ => exact h.ne_nil
  | run h _ _ => exact h.ne_nil

/-- A segment is one of a part that it lies in, whatever stands before that part. -/
theorem of_append_left (h : Segment (front ++ before) ts after) : Segment before ts after := by
  have hbefore : ∀ t ∈ before.getLast?, t ∈ (front ++ before).getLast? := by
    intro t ht
    simp [List.getLast?_append, Option.mem_def.1 ht]
  cases h with
  | operand h hname => exact .operand h fun t ht => hname t (hbefore t ht)
  | run h hfirst hlast => exact .run h (fun t ht => hfirst t (hbefore t ht)) hlast

/-- And whatever stands behind it. -/
theorem of_append_right (h : Segment before ts (after ++ back)) : Segment before ts after := by
  have hafter : ∀ t ∈ after.head?, t ∈ (after ++ back).head? := by
    intro t ht
    simp [List.head?_append, Option.mem_def.1 ht]
  cases h with
  | operand h hname => exact .operand h hname
  | run h hfirst hlast => exact .run h hfirst fun t ht => hlast t (hafter t ht)

theorem of_cons (h : Segment (t :: before) ts after) : Segment before ts after := by
  have hfront : Segment ([t] ++ before) ts after := h
  exact hfront.of_append_left

/-- No segment begins directly behind the name of a function. -/
theorem not_function_before (h : Segment (before ++ [t]) ts after) : t.kind ≠ .function := by
  have ht : t ∈ (before ++ [t]).getLast? := by simp
  cases h with
  | operand _ hname => exact hname t ht
  | run _ hbefore _ =>
    rcases hbefore t ht with hopens | hseparates
    · simp [Token.kind_of_opens hopens]
    · simp [Token.kind_of_separates hseparates]

/-- A run that stands outside all groups is all of the tokens. -/
theorem whole_of_run (h : Segment before ts after) (hprimary : ¬ Phrase.Primary ts)
    (hundivided : Undivided (before ++ (ts ++ after))) (hbefore : Balanced before) :
    before = [] ∧ after = [] := by
  cases h with
  | operand h _ => exact absurd h hprimary
  | run hrun hfirst hlast =>
    have hnil : before = [] := by
      rcases List.eq_nil_or_concat before with hnil | ⟨front, t, hcons⟩
      · exact hnil
      · rw [List.concat_eq_append] at hcons
        rw [hcons, List.append_assoc] at hundivided
        rw [hcons] at hbefore
        exact absurd hbefore
          (Group.not_balanced_of_begins hundivided (hfirst t (by simp [hcons])))
    refine ⟨hnil, ?_⟩
    cases after with
    | nil => rfl
    | cons t back =>
      rw [hnil, List.nil_append] at hundivided
      exact absurd hundivided (Group.not_undivided_of_ends hrun.undivided (hlast t rfl))

end Segment

/-- A segment that is an operand, or lies inside of a group: then it does not matter for the phrase
around it how the segment itself is made up. -/
def Inside (before ts : List Token) : Prop := Phrase.Primary ts ∨ ¬ Balanced before

namespace Inside

theorem of_cons (h : Inside (t :: before) ts) (hkind : t.kind ≠ .symbol) : Inside before ts := by
  refine h.imp id fun hdeep hbalanced => hdeep ?_
  rw [Group.Balanced, Group.openAfter_of_kind hkind rfl]
  exact hbalanced

theorem of_append (h : Inside (front ++ before) ts) (hfront : Balanced front) :
    Inside before ts :=
  h.imp id fun hdeep hbalanced => hdeep (hfront.append hbalanced)

/-- Such a segment does not begin with an operator where nothing stands before it. -/
theorem ne_nil_of_operator (h : Inside before ts) (hts : t :: us = before ++ (ts ++ after))
    (hne : ts ≠ []) (hkind : t.kind = .operator) : ∃ before', before = t :: before' ∧
      us = before' ++ (ts ++ after) := by
  cases before with
  | cons u before' =>
    cases hts
    exact ⟨before', rfl, rfl⟩
  | nil =>
    obtain ⟨u, rest, rfl⟩ := List.exists_cons_of_ne_nil hne
    cases hts
    rcases h with hprimary | hdeep
    · exact absurd hkind hprimary.not_operator
    · exact absurd rfl hdeep

/-- Of an operand such a segment is all, or something stands before it. -/
theorem exists_cons_of_primary (h : Inside before ts) (hsegment : Segment before ts after)
    (hprimary : Phrase.Primary (before ++ (ts ++ after))) (hwhole : ¬ (before = [] ∧ after = [])) :
    ∃ t before', before = t :: before' := by
  cases before with
  | cons t before' => exact ⟨t, before', rfl⟩
  | nil =>
    exfalso
    have hafter : after ≠ [] := fun hnil => hwhole ⟨rfl, hnil⟩
    rcases h with hoperand | hdeep
    · rw [List.nil_append] at hprimary
      obtain ⟨t, _, _, rfl, hkind, _, _⟩ :=
        hprimary.call_of_append hsegment.undivided hsegment.ne_nil hafter
      rcases hoperand.kind_of_singleton with hconstant | hcell
      · simp [hkind] at hconstant
      · simp [hkind] at hcell
    · exact hdeep rfl

end Inside

end Spreadsheet
