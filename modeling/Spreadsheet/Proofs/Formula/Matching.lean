import Spreadsheet.Proofs.Formula.Segments
import Mathlib.Logic.ExistsUnique

/-!
# Matching parentheses by counting them

Parentheses match if, up to any place, no more groups have been closed than opened, and in the end
as many. The number of open groups, which the reading of tokens keeps, is the difference of these
two counts. So the search for the parenthesis that closes a group stops at the first place where one
more has been closed than opened, and the splitting of a run at its commas fails only if the
parentheses of the run do not match or if nothing stands between two of these commas.

## Main results

* `openAfter_eq_some_iff`: the number of open groups is a difference of counts.
* `take_eq_ok_iff`: a group is found exactly where one stands.
* `arguments_eq_ok_iff`: the arguments of a run are its top-level segments.
* `take_and_arguments_exact`: when both succeed, in terms of counts, and what they give then.
-/

namespace Spreadsheet.Group

variable {barred : Token → Bool} {n m : Nat} {t : Token} {ts run behind : List Token}
  {args segments : List (List Token)}

/-! ## Counting parentheses -/

/-- Parentheses match: at no place have more groups been closed than opened, and in the end as
many. -/
structure Matched (ts : List Token) : Prop where
  never_more : ∀ us, us <+: ts → us.countP Token.closes ≤ us.countP Token.opens
  as_many : ts.countP Token.closes = ts.countP Token.opens

/-- Every comma stands inside a group: before it, more groups have been opened than closed. -/
def CommasInside (ts : List Token) : Prop :=
  ∀ before t after, ts = before ++ t :: after → t.separates = true →
    before.countP Token.closes < before.countP Token.opens

theorem countP_cons_eq (p : Token → Bool) (t : Token) (ts : List Token) :
    (t :: ts).countP p = [t].countP p + ts.countP p := by
  rw [← List.countP_append, List.singleton_append]

theorem levelBehind_add_closes (h : ¬ (n = 0 ∧ t.closes = true)) :
    levelBehind n t + [t].countP Token.closes = n + [t].countP Token.opens := by
  rw [List.countP_singleton, List.countP_singleton, levelBehind]
  by_cases hopens : t.opens = true
  · have hcloses : t.closes ≠ true := fun hcloses => by
      rw [Token.not_opens_of_closes hcloses] at hopens
      cases hopens
    rw [if_pos hopens, if_pos hopens, if_neg hcloses]
  · rw [if_neg hopens, if_neg hopens]
    by_cases hcloses : t.closes = true
    · have hopen : n ≠ 0 := fun hn => h ⟨hn, hcloses⟩
      rw [if_pos hcloses, if_pos hcloses]
      omega
    · rw [if_neg hcloses, if_neg hcloses]

/-- By their counts, tokens turn one number of open groups into another: no group is closed that is
not open, and nothing barred stands outside all groups. -/
structure Shifts (barred : Token → Bool) (n : Nat) (ts : List Token) (m : Nat) : Prop where
  never_more : ∀ us, us <+: ts → us.countP Token.closes ≤ n + us.countP Token.opens
  total : n + ts.countP Token.opens = m + ts.countP Token.closes
  inside : ∀ before t after, ts = before ++ t :: after → barred t = true →
    before.countP Token.closes < n + before.countP Token.opens

theorem shifts_nil_iff : Shifts barred n [] m ↔ n = m := by
  constructor
  · exact Shifts.total
  · rintro rfl
    refine ⟨fun us hus => ?_, rfl, fun before t after h => ?_⟩
    · rw [List.prefix_nil.1 hus]
      exact Nat.zero_le _
    · simp at h

/-- Outside all groups nothing can be closed, and nothing barred can stand. -/
theorem not_shifts_of_blocked (h : t.closes = true ∨ barred t = true) :
    ¬ Shifts barred 0 (t :: ts) m := by
  intro hshifts
  rcases h with hcloses | hbarred
  · have hfirst := hshifts.never_more [t] (List.prefix_append [t] ts)
    rw [List.countP_singleton, List.countP_singleton, if_pos hcloses,
      if_neg (by simp [Token.not_opens_of_closes hcloses])] at hfirst
    cases hfirst
  · have hfirst := hshifts.inside [] t ts rfl hbarred
    cases hfirst

/-- The first token shifts all counts behind it alike. -/
theorem shifts_cons_iff (h : ¬ (n = 0 ∧ (t.closes = true ∨ barred t = true))) :
    Shifts barred n (t :: ts) m ↔ Shifts barred (levelBehind n t) ts m := by
  have hlevel : levelBehind n t + [t].countP Token.closes = n + [t].countP Token.opens :=
    levelBehind_add_closes fun hn => h ⟨hn.1, .inl hn.2⟩
  constructor
  · intro hshifts
    refine ⟨fun us hus => ?never_more, ?total, fun before u after hts hu => ?inside⟩
    case never_more =>
      have := hshifts.never_more (t :: us) (List.cons_prefix_cons.2 ⟨rfl, hus⟩)
      rw [countP_cons_eq Token.opens, countP_cons_eq Token.closes] at this
      omega
    case total =>
      have := hshifts.total
      rw [countP_cons_eq Token.opens, countP_cons_eq Token.closes] at this
      omega
    case inside =>
      have := hshifts.inside (t :: before) u after (by rw [hts]; rfl) hu
      rw [countP_cons_eq Token.opens, countP_cons_eq Token.closes] at this
      omega
  · intro hshifts
    refine ⟨fun us hus => ?never_more, ?total, fun before u after hts hu => ?inside⟩
    case never_more =>
      rcases List.prefix_cons_iff.1 hus with rfl | ⟨vs, rfl, hvs⟩
      · exact Nat.zero_le _
      · have := hshifts.never_more vs hvs
        rw [countP_cons_eq Token.opens, countP_cons_eq Token.closes]
        omega
    case total =>
      have := hshifts.total
      rw [countP_cons_eq Token.opens, countP_cons_eq Token.closes]
      omega
    case inside =>
      rcases List.cons_eq_append_iff.1 hts with ⟨rfl, hcons⟩ | ⟨before, rfl, hrest⟩
      · cases hcons
        have hn : n ≠ 0 := fun hn => h ⟨hn, .inr hu⟩
        rw [List.countP_nil, List.countP_nil]
        omega
      · have := hshifts.inside before u after hrest hu
        rw [countP_cons_eq Token.opens, countP_cons_eq Token.closes]
        omega

/-- The number of groups that tokens leave open is the one that their counts give. -/
theorem openAfter_eq_some_iff : openAfter barred n ts = some m ↔ Shifts barred n ts m := by
  induction ts generalizing n with
  | nil => rw [openAfter_nil, Option.some.injEq, shifts_nil_iff]
  | cons t rest ih =>
    by_cases hblocked : n = 0 ∧ (t.closes = true ∨ barred t = true)
    · rw [openAfter, if_pos hblocked]
      obtain ⟨rfl, hends⟩ := hblocked
      exact iff_of_false (Option.some_ne_none m).symm (not_shifts_of_blocked hends)
    · rw [openAfter, if_neg hblocked, ih, shifts_cons_iff hblocked]

/-- Tokens open and close the same groups, and nothing barred stands outside these. -/
theorem openAfter_zero_iff : openAfter barred 0 ts = some 0 ↔
    Matched ts ∧ ∀ before t after, ts = before ++ t :: after → barred t = true →
      before.countP Token.closes < before.countP Token.opens := by
  rw [openAfter_eq_some_iff]
  constructor
  · intro h
    have htotal := h.total
    have hfronts := h.never_more
    have hinside := h.inside
    simp only [Nat.zero_add] at htotal hfronts hinside
    exact ⟨⟨hfronts, htotal.symm⟩, hinside⟩
  · rintro ⟨hmatched, hinside⟩
    refine ⟨?never_more, ?total, ?inside⟩ <;> simp only [Nat.zero_add]
    case never_more => exact hmatched.never_more
    case total => exact hmatched.as_many.symm
    case inside => exact hinside

theorem balanced_iff_matched : Balanced ts ↔ Matched ts := by
  rw [Balanced, openAfter_zero_iff]
  simp

theorem undivided_iff : Undivided ts ↔ Matched ts ∧ CommasInside ts :=
  openAfter_zero_iff

/-! ## Groups -/

/-- The run before the parenthesis that is found closes all groups that are open but one. -/
theorem openAfter_of_enclosed? {last : Token} (h : enclosed? n ts = some (run, last, behind)) :
    openAfter (fun _ => false) n run = some 0 := by
  fun_induction enclosed? n ts generalizing run last behind with
  | case1 => cases h
  | case2 n u rest hopens ih =>
    obtain ⟨⟨r, s⟩, hr, he⟩ := Option.map_eq_some_iff.1 h
    cases he
    rw [openAfter_of_opens hopens rfl]
    exact ih hr
  | case3 u rest _ _ =>
    cases h
    rfl
  | case4 u rest _ hcloses n ih =>
    obtain ⟨⟨r, s⟩, hr, he⟩ := Option.map_eq_some_iff.1 h
    cases he
    rw [openAfter_of_closes hcloses]
    exact ih hr
  | case5 n u rest hopens hcloses ih =>
    obtain ⟨⟨r, s⟩, hr, he⟩ := Option.map_eq_some_iff.1 h
    cases he
    rw [openAfter_cons (by simp [hcloses]), levelBehind, if_neg hopens, if_neg hcloses]
    exact ih hr

/-- If no parenthesis is found, no more groups are closed than were open. -/
theorem exists_openAfter_of_enclosed? (h : enclosed? n ts = none) :
    ∃ m, openAfter (fun _ => false) n ts = some m := by
  fun_induction enclosed? n ts with
  | case1 n => exact ⟨n, rfl⟩
  | case2 n u rest hopens ih =>
    rw [openAfter_of_opens hopens rfl]
    exact ih (Option.map_eq_none_iff.1 h)
  | case3 u rest _ _ => cases h
  | case4 u rest _ hcloses n ih =>
    rw [openAfter_of_closes hcloses]
    exact ih (Option.map_eq_none_iff.1 h)
  | case5 n u rest hopens hcloses ih =>
    rw [openAfter_cons (by simp [hcloses]), levelBehind, if_neg hopens, if_neg hcloses]
    exact ih (Option.map_eq_none_iff.1 h)

theorem balanced_of_take (h : take ts = .ok (run, behind)) : Balanced run := by
  unfold take at h
  split at h
  · cases h
  · split at h
    · cases h
    · split at h
      · next hfound =>
        cases h
        exact openAfter_of_enclosed? hfound
      · cases h

/-- A group is found exactly where one stands: an opening parenthesis, a run whose parentheses
match, and a closing parenthesis. -/
theorem take_eq_ok_iff : take ts = .ok (run, behind) ↔
    ∃ first last, first.opens = true ∧ Balanced run ∧ last.closes = true ∧
      ts = first :: (run ++ last :: behind) := by
  constructor
  · intro h
    obtain ⟨first, last, hopens, hcloses, hts⟩ := eq_of_take h
    exact ⟨first, last, hopens, balanced_of_take h, hcloses, hts⟩
  · rintro ⟨first, last, hopens, hbalanced, hcloses, rfl⟩
    exact take_of_balanced hopens hbalanced hcloses

/-- One more group is closed than opened. -/
def ClosesOneMore (front : List Token) : Prop :=
  front.countP Token.closes = front.countP Token.opens + 1

theorem Matched.closesOneMore {last : Token} (h : Matched run) (hcloses : last.closes = true) :
    ClosesOneMore (run ++ [last]) := by
  rw [ClosesOneMore, List.countP_append, List.countP_append, List.countP_singleton,
    List.countP_singleton, if_pos hcloses, if_neg (by simp [Token.not_opens_of_closes hcloses]),
    h.as_many]

/-- A group is found if and only if the tokens begin with an opening parenthesis and somewhere
behind it one more group has been closed than opened. -/
theorem exists_take_iff {first : Token} (hopens : first.opens = true) :
    (∃ found, take (first :: ts) = .ok found) ↔ ∃ front, front <+: ts ∧ ClosesOneMore front := by
  constructor
  · rintro ⟨⟨run, behind⟩, h⟩
    obtain ⟨_, last, _, hbalanced, hcloses, hts⟩ := take_eq_ok_iff.1 h
    refine ⟨run ++ [last], ⟨behind, ?_⟩, (balanced_iff_matched.1 hbalanced).closesOneMore hcloses⟩
    rw [(List.cons.inj hts).2, List.append_assoc]
    rfl
  · rintro ⟨front, hfront, hmore⟩
    rw [take, if_neg (by simp [hopens])]
    cases hfound : enclosed? 0 ts with
    | some found => exact ⟨_, rfl⟩
    | none =>
      obtain ⟨m, hm⟩ := exists_openAfter_of_enclosed? hfound
      have hle := (openAfter_eq_some_iff.1 hm).never_more front hfront
      rw [ClosesOneMore] at hmore
      omega

/-- What the group at a place among tokens encloses, and what is behind the group. -/
structure Encloses (tokens : List Token) (index : Nat) (run behind : List Token) : Prop where
  matched : Matched run
  inside : run <+: tokens.drop (index + 1)
  /-- The token before the one that is next behind the group closes it. -/
  closed : ∃ last, tokens[index + 1 + run.length]? = some last ∧ last.closes = true
  behind_eq : behind = tokens.drop (index + 1 + run.length + 1)
  /-- Nowhere before has one more group been closed than opened. -/
  shortest : ∀ front, front <+: tokens.drop (index + 1) → ClosesOneMore front →
    run.length < front.length

theorem drop_eq_cons_iff {tokens : List Token} {index : Nat} {first : Token} :
    tokens.drop index = first :: ts ↔
      tokens[index]? = some first ∧ tokens.drop (index + 1) = ts := by
  by_cases hindex : index < tokens.length
  · rw [List.drop_eq_getElem_cons hindex, List.getElem?_eq_getElem hindex, List.cons.injEq,
      Option.some.injEq]
  · have hbeyond : tokens.length ≤ index := Nat.le_of_not_lt hindex
    rw [List.drop_eq_nil_of_le hbeyond, List.getElem?_eq_none hbeyond]
    simp

theorem encloses_of_take {tokens : List Token} {index : Nat}
    (h : take (tokens.drop index) = .ok (run, behind)) : Encloses tokens index run behind := by
  obtain ⟨first, last, hopens, hbalanced, hcloses, hdrop⟩ := take_eq_ok_iff.1 h
  have hmatched := balanced_iff_matched.1 hbalanced
  obtain ⟨hfirst, hrest⟩ := drop_eq_cons_iff.1 hdrop
  have hbehind : tokens.drop (index + 1 + run.length) = last :: behind := by
    rw [← List.drop_drop, hrest, List.drop_left]
  obtain ⟨hlast, hnext⟩ := drop_eq_cons_iff.1 hbehind
  refine ⟨hmatched, ⟨_, hrest.symm⟩, ⟨last, hlast, hcloses⟩, hnext.symm,
    fun front hfront hmore => Nat.lt_of_not_le fun hshort => ?_⟩
  rw [hrest] at hfront
  have hinside : front <+: run :=
    List.prefix_of_prefix_length_le hfront (List.prefix_append _ _) hshort
  have := hmatched.never_more front hinside
  rw [ClosesOneMore] at hmore
  omega

/-! ## Segments and arguments -/

/-- The top-level segments of tokens: with commas between them they make up the tokens, in each of
them parentheses match, and each comma in them stands inside a group. -/
def Segmented (ts : List Token) (segments : List (List Token)) : Prop :=
  Joined ts segments ∧ ∀ segment ∈ segments, Matched segment ∧ CommasInside segment

theorem segmented_iff :
    Segmented ts segments ↔ Joined ts segments ∧ ∀ segment ∈ segments, Undivided segment :=
  and_congr_right fun _ => forall₂_congr fun _ _ => undivided_iff.symm

theorem Joined.cons_head {first : List Token} {others : List (List Token)}
    (h : Joined ts (first :: others)) (t : Token) : Joined (t :: ts) ((t :: first) :: others) := by
  cases h with
  | last => exact .last _
  | cons _ hseparates hrest => exact .cons (t :: first) hseparates hrest

theorem Joined.ne_nil (h : Joined ts args) (hargs : ∀ arg ∈ args, arg ≠ []) : ts ≠ [] := by
  cases h with
  | last => exact hargs ts List.mem_cons_self
  | cons arg _ _ => simp

theorem Joined.balanced (h : Joined ts args) (hargs : ∀ arg ∈ args, Undivided arg) :
    Balanced ts := by
  induction h with
  | last arg => exact (hargs arg List.mem_cons_self).balanced
  | cons arg hseparates _ ih =>
    have hrest := ih fun other hother => hargs other (List.mem_cons_of_mem _ hother)
    exact (hargs arg List.mem_cons_self).balanced.append
      ((balanced_cons_of_separates hseparates).2 hrest)

/-- Where the first segment ends is determined by the tokens. -/
theorem Undivided.append_comma_inj {arg arg' rest rest' : List Token} {t t' : Token}
    (harg : Undivided arg) (harg' : Undivided arg') (ht : t.separates = true)
    (ht' : t'.separates = true) (h : arg ++ t :: rest = arg' ++ t' :: rest') :
    arg = arg' ∧ rest = rest' := by
  rcases List.append_eq_append_iff.1 h with ⟨more, rfl, hmore⟩ | ⟨more, rfl, hmore⟩
  · cases more with
    | nil =>
      cases hmore
      exact ⟨(List.append_nil arg).symm, rfl⟩
    | cons u more =>
      cases hmore
      exact absurd harg' (not_undivided_of_ends harg (.inr ht))
  · cases more with
    | nil =>
      cases hmore
      exact ⟨List.append_nil arg', rfl⟩
    | cons u more =>
      cases hmore
      exact absurd harg (not_undivided_of_ends harg' (.inr ht'))

/-- Tokens are made up of undivided ones in one way only. -/
theorem Joined.unique (h : Joined ts args) (h' : Joined ts segments)
    (hargs : ∀ arg ∈ args, Undivided arg) (hsegments : ∀ segment ∈ segments, Undivided segment) :
    args = segments := by
  induction h generalizing segments with
  | last arg =>
    cases h' with
    | last => rfl
    | cons front hseparates _ =>
      exact absurd (hargs _ List.mem_cons_self)
        (not_undivided_of_ends (hsegments front List.mem_cons_self) (.inr hseparates))
  | @cons t rest others arg hseparates _ ih =>
    have harg := hargs arg List.mem_cons_self
    generalize hts : arg ++ t :: rest = ts at h'
    cases h' with
    | last =>
      refine absurd (hsegments ts List.mem_cons_self) ?_
      rw [← hts]
      exact not_undivided_of_ends harg (.inr hseparates)
    | cons front hcomma hrest =>
      obtain ⟨rfl, rfl⟩ := harg.append_comma_inj (hsegments front List.mem_cons_self) hseparates
        hcomma hts
      rw [ih hrest (fun other hother => hargs other (List.mem_cons_of_mem _ hother))
        fun other hother => hsegments other (List.mem_cons_of_mem _ hother)]

/-- Tokens that close all open groups are made up of a first segment, which closes them, and of
further undivided ones. -/
theorem exists_joined (h : openAfter (fun _ => false) n ts = some 0) :
    ∃ first others, Joined ts (first :: others) ∧ openAfter Token.separates n first = some 0 ∧
      ∀ other ∈ others, Undivided other := by
  induction ts generalizing n with
  | nil => exact ⟨[], [], .last [], h, fun _ hother => by cases hother⟩
  | cons t rest ih =>
    rw [openAfter] at h
    split at h
    · cases h
    · next hfree =>
      obtain ⟨first, others, hjoined, hfirst, hothers⟩ := ih h
      by_cases hcomma : n = 0 ∧ t.separates = true
      · obtain ⟨rfl, hseparates⟩ := hcomma
        rw [levelBehind_of_separates hseparates] at hfirst
        exact ⟨[], first :: others, .cons [] hseparates hjoined, rfl,
          List.forall_mem_cons.2 ⟨hfirst, hothers⟩⟩
      · refine ⟨t :: first, others, hjoined.cons_head t, ?_, hothers⟩
        rw [openAfter_cons, hfirst]
        rintro ⟨hn, hcloses | hseparates⟩
        · exact hfree ⟨hn, .inl hcloses⟩
        · exact hcomma ⟨hn, hseparates⟩

/-- Tokens whose parentheses match have top-level segments, and these are determined. -/
theorem existsUnique_segmented (h : Matched ts) : ∃! segments, Segmented ts segments := by
  obtain ⟨first, others, hjoined, hfirst, hothers⟩ := exists_joined (balanced_iff_matched.2 h)
  have hundivided : ∀ segment ∈ first :: others, Undivided segment :=
    List.forall_mem_cons.2 ⟨hfirst, hothers⟩
  refine ⟨first :: others, segmented_iff.2 ⟨hjoined, hundivided⟩, fun segments hsegmented => ?_⟩
  obtain ⟨hjoined', hundivided'⟩ := segmented_iff.1 hsegmented
  exact hjoined'.unique hjoined hundivided' hundivided

/-- Arguments that go on from one that has begun: it ends when the open groups are closed, and
behind it stand arguments of their own. None of them is empty. -/
def Continues (n : Nat) (current : List Token) (args : List (List Token)) : Prop :=
  ∃ front others, args = (current.reverse ++ front) :: others ∧ current.reverse ++ front ≠ [] ∧
    openAfter Token.separates n front = some 0 ∧ ∀ other ∈ others, other ≠ [] ∧ Undivided other

/-- A token that belongs to the argument that has begun is read before what goes on behind it. -/
theorem Continues.of_cons {current : List Token} (h : Continues m (t :: current) args)
    (hstep : ∀ front,
      openAfter Token.separates n (t :: front) = openAfter Token.separates m front) :
    Continues n current args := by
  obtain ⟨front, others, rfl, hne, hfront, hothers⟩ := h
  exact ⟨t :: front, others, by simp, by simp, (hstep front).trans hfront, hothers⟩

/-- What is split goes on from the argument that has begun, if there is something of it or left. -/
theorem continues_of_splitFrom {current : List Token} (h : splitFrom n current ts = .ok args)
    (hsome : current ≠ [] ∨ ts ≠ []) : Continues n current args := by
  fun_induction splitFrom n current ts generalizing args with
  | case1 current =>
    cases h
    refine ⟨[], [], by simp, ?_, rfl, fun _ hother => by cases hother⟩
    simpa using hsome
  | case2 | case4 | case6 | case7 => cases h
  | case3 n current t rest hopens ih =>
    exact (ih h (.inl (List.cons_ne_nil _ _))).of_cons fun front =>
      openAfter_of_opens hopens (Token.not_separates_of_opens hopens)
  | case5 current t rest _ hcloses n ih =>
    exact (ih h (.inl (List.cons_ne_nil _ _))).of_cons fun front => openAfter_of_closes hcloses
  | case8 n current t rest _ _ hseparates hcurrent hrest ih =>
    cases hs : splitFrom 0 [] rest with
    | error e => simp [hs, Except.map] at h
    | ok others =>
      simp only [hs, Except.map, Except.ok.injEq] at h
      obtain ⟨front, others, rfl, hne, hfront, hothers⟩ := ih hs (.inr (by simpa using hrest))
      rw [Bool.and_eq_true, beq_iff_eq] at hseparates
      refine ⟨[], _, by rw [List.append_nil, h], by simpa using hcurrent, ?_, ?_⟩
      · rw [hseparates.2]
        rfl
      · exact List.forall_mem_cons.2 ⟨⟨hne, hfront⟩, hothers⟩
  | case9 n current t rest hopens hcloses hcomma ih =>
    refine (ih h (.inl (List.cons_ne_nil _ _))).of_cons fun front => ?_
    rw [openAfter_cons, levelBehind, if_neg hopens, if_neg hcloses]
    rintro ⟨hn, hc | hseparates⟩
    · exact hcloses hc
    · exact hcomma (by rw [hseparates, hn]; rfl)

/-- The arguments of a run are its top-level segments, none of which is empty; a run without tokens
has no arguments. -/
theorem arguments_eq_ok_iff : arguments ts = .ok args ↔
    ts = [] ∧ args = [] ∨ Joined ts args ∧ ∀ arg ∈ args, arg ≠ [] ∧ Undivided arg := by
  constructor
  · intro h
    by_cases hts : ts = []
    · rw [arguments, if_pos (by simpa using hts)] at h
      cases h
      exact .inl ⟨hts, rfl⟩
    · rw [arguments, if_neg (by simpa using hts)] at h
      have hjoined : Joined ts args := joined_of_splitFrom h
      obtain ⟨front, others, rfl, hne, hfront, hothers⟩ := continues_of_splitFrom h (.inr hts)
      exact .inr ⟨hjoined, List.forall_mem_cons.2 ⟨⟨hne, hfront⟩, hothers⟩⟩
  · rintro (⟨rfl, rfl⟩ | ⟨hjoined, hargs⟩)
    · rfl
    · exact arguments_of_joined hjoined (hjoined.ne_nil fun arg harg => (hargs arg harg).1) hargs

/-- A run has arguments if and only if it is empty, or its parentheses match and none of its
top-level segments is empty. -/
theorem exists_arguments_iff : (∃ args, arguments ts = .ok args) ↔
    ts = [] ∨ Matched ts ∧ ∀ segments, Segmented ts segments → [] ∉ segments := by
  constructor
  · rintro ⟨args, h⟩
    rcases arguments_eq_ok_iff.1 h with ⟨rfl, _⟩ | ⟨hjoined, hargs⟩
    · exact .inl rfl
    · have hundivided : ∀ arg ∈ args, Undivided arg := fun arg harg => (hargs arg harg).2
      have hmatched : Matched ts := balanced_iff_matched.1 (hjoined.balanced hundivided)
      refine .inr ⟨hmatched, fun segments hs hempty => ?_⟩
      obtain ⟨hjoined', hundivided'⟩ := segmented_iff.1 hs
      rw [← hjoined.unique hjoined' hundivided hundivided'] at hempty
      exact (hargs [] hempty).1 rfl
  · rintro (rfl | ⟨hmatched, hsegments⟩)
    · exact ⟨[], rfl⟩
    · obtain ⟨segments, hs, _⟩ := existsUnique_segmented hmatched
      obtain ⟨hjoined, hundivided⟩ := segmented_iff.1 hs
      refine ⟨segments, arguments_eq_ok_iff.2 (.inr ⟨hjoined, fun segment hsegment => ?_⟩)⟩
      exact ⟨fun hempty => hsegments segments hs (hempty ▸ hsegment), hundivided segment hsegment⟩

/-! ## Groups and arguments together -/

/-- A group is found at a place if and only if an opening parenthesis stands there and somewhere
behind it one more group has been closed than opened; it is the shortest such run, and parentheses
match in it. A run has arguments if and only if it is empty, or its parentheses match and none of
its top-level segments is empty; these segments, which are determined, are its arguments. -/
theorem take_and_arguments_exact (tokens : List Token) (index : Nat) (run : List Token) :
    ((∃ found, take (tokens.drop index) = .ok found) ↔
        (∃ first, tokens[index]? = some first ∧ first.opens = true) ∧
          ∃ front, front <+: tokens.drop (index + 1) ∧ ClosesOneMore front) ∧
      (∀ inner behind, take (tokens.drop index) = .ok (inner, behind) →
        Encloses tokens index inner behind) ∧
      ((∃ args, arguments run = .ok args) ↔
        run = [] ∨ Matched run ∧ ∀ segments, Segmented run segments → [] ∉ segments) ∧
      (Matched run → ∃! segments, Segmented run segments) ∧
      ∀ args, arguments run = .ok args →
        (run = [] → args = []) ∧ (run ≠ [] → Segmented run args) := by
  refine ⟨?groups, fun inner behind => encloses_of_take, exists_arguments_iff,
    existsUnique_segmented, fun args h => ?segments⟩
  case groups =>
    cases hdrop : tokens.drop index with
    | nil =>
      have hnone : tokens[index]? = none :=
        List.getElem?_eq_none (List.drop_eq_nil_iff.1 hdrop)
      simp [take, hnone]
    | cons first rest =>
      obtain ⟨hfirst, hrest⟩ := drop_eq_cons_iff.1 hdrop
      rw [hfirst, hrest]
      by_cases hopens : first.opens = true
      · rw [exists_take_iff hopens]
        exact (and_iff_right ⟨first, rfl, hopens⟩).symm
      · simp [take, hopens]
  case segments =>
    rcases arguments_eq_ok_iff.1 h with ⟨hrun, hargs⟩ | ⟨hjoined, hargs⟩
    · exact ⟨fun _ => hargs, fun hne => absurd hrun hne⟩
    · have hne : run ≠ [] := hjoined.ne_nil fun arg harg => (hargs arg harg).1
      exact ⟨fun hrun => absurd hrun hne,
        fun _ => segmented_iff.2 ⟨hjoined, fun arg harg => (hargs arg harg).2⟩⟩

/-- The tokens of `(A1,(B1,C1)))`: a group with a group in it, and a parenthesis that nothing
opened. -/
def strayTokens : List Token :=
  [⟨.symbol, "(", none, 0⟩, ⟨.cell, "A1", none, 1⟩, ⟨.symbol, ",", none, 3⟩,
    ⟨.symbol, "(", none, 4⟩, ⟨.cell, "B1", none, 5⟩, ⟨.symbol, ",", none, 7⟩,
    ⟨.cell, "C1", none, 8⟩, ⟨.symbol, ")", none, 10⟩, ⟨.symbol, ")", none, 11⟩,
    ⟨.symbol, ")", none, 12⟩]

/-- The group at the front ends at the parenthesis before the last one, and the comma of the inner
group does not split it. -/
theorem take_and_arguments_exact_strayTokens :
    take (strayTokens.drop 0) = .ok ((strayTokens.drop 1).take 7, strayTokens.drop 9) ∧
      Encloses strayTokens 0 ((strayTokens.drop 1).take 7) (strayTokens.drop 9) ∧
      arguments ((strayTokens.drop 1).take 7) =
        .ok [(strayTokens.drop 1).take 1, (strayTokens.drop 3).take 5] ∧
      Segmented ((strayTokens.drop 1).take 7)
        [(strayTokens.drop 1).take 1, (strayTokens.drop 3).take 5] := by
  obtain ⟨_, hencloses, _, _, hsegmented⟩ :=
    take_and_arguments_exact strayTokens 0 ((strayTokens.drop 1).take 7)
  have htake : take (strayTokens.drop 0) =
      .ok ((strayTokens.drop 1).take 7, strayTokens.drop 9) := by rfl
  have harguments : arguments ((strayTokens.drop 1).take 7) =
      .ok [(strayTokens.drop 1).take 1, (strayTokens.drop 3).take 5] := by rfl
  exact ⟨htake, hencloses _ _ htake, harguments,
    (hsegmented _ harguments).2 (by decide)⟩

end Spreadsheet.Group
