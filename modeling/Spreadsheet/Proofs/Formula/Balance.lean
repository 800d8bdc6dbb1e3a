import Spreadsheet.Proofs.Formula.Grammar

/-!
# Open groups

Tokens are read with a count of the groups that are open. Tokens are balanced if no parenthesis
among them is closed that they have not opened, and none is left open; they are undivided if besides
no comma stands outside their groups. The search for the parenthesis that closes a group passes
balanced tokens as a whole, and so does the splitting of arguments at commas with undivided ones.

## Main results

* `openAfter_add`: with more groups open before them, tokens leave as many more open.
* `take_of_balanced`: the group at the front is found from its two parentheses.
* `arguments_of_joined`: undivided runs with commas between them are split at these commas.
-/

namespace Spreadsheet.Group

/-- The number of groups that are open behind a token. -/
def levelBehind (n : Nat) (t : Token) : Nat :=
  if t.opens then n + 1 else if t.closes then n - 1 else n

/-- The number of groups that are open behind tokens, if `n` are open before them. It is none where
a group is closed that was not open, or where a barred token stands outside all groups. -/
def openAfter (barred : Token → Bool) : Nat → List Token → Option Nat
  | n, [] => some n
  | n, t :: rest =>
    if n = 0 ∧ (t.closes = true ∨ barred t = true) then none
    else openAfter barred (levelBehind n t) rest

/-- The greatest number of groups that are open at once, if `n` are open before the tokens. -/
def nestingFrom : Nat → List Token → Nat
  | n, [] => n
  | n, t :: rest => max n (nestingFrom (levelBehind n t) rest)

/-- How deeply groups and calls nest in tokens. -/
def nesting (ts : List Token) : Nat := nestingFrom 0 ts

/-- Every group that is closed was opened before, and every group that is opened is closed. -/
def Balanced (ts : List Token) : Prop := openAfter (fun _ => false) 0 ts = some 0

/-- Balanced, and without a comma outside all groups. -/
def Undivided (ts : List Token) : Prop := openAfter Token.separates 0 ts = some 0

variable {barred barred' : Token → Bool} {n m k : Nat} {t : Token} {ts us rest : List Token}

/-! ## Levels -/

theorem levelBehind_of_opens (h : t.opens = true) : levelBehind n t = n + 1 := if_pos h

theorem levelBehind_of_closes (h : t.closes = true) : levelBehind n t = n - 1 := by
  rw [levelBehind, if_neg (by simp [Token.not_opens_of_closes h]), if_pos h]

theorem levelBehind_of_kind (h : t.kind ≠ .symbol) : levelBehind n t = n := by
  rw [levelBehind, if_neg fun hopens => h (Token.kind_of_opens hopens),
    if_neg fun hcloses => h (Token.kind_of_closes hcloses)]

theorem levelBehind_of_separates (h : t.separates = true) : levelBehind n t = n := by
  rw [levelBehind, if_neg (by simp [Token.not_opens_of_separates h]),
    if_neg (by simp [Token.not_closes_of_separates h])]

theorem levelBehind_add (h : ¬ (n = 0 ∧ t.closes = true)) :
    levelBehind (n + k) t = levelBehind n t + k := by
  unfold levelBehind
  split
  · omega
  · split
    · next hcloses =>
      have : n ≠ 0 := fun hn => h ⟨hn, hcloses⟩
      omega
    · rfl

@[simp] theorem openAfter_nil : openAfter barred n [] = some n := rfl

theorem openAfter_cons (h : ¬ (n = 0 ∧ (t.closes = true ∨ barred t = true))) :
    openAfter barred n (t :: rest) = openAfter barred (levelBehind n t) rest := if_neg h

theorem openAfter_of_opens (hopens : t.opens = true) (hbarred : barred t = false) :
    openAfter barred n (t :: rest) = openAfter barred (n + 1) rest := by
  rw [openAfter_cons, levelBehind_of_opens hopens]
  rintro ⟨_, hcloses | hb⟩
  · rw [Token.not_opens_of_closes hcloses] at hopens
    cases hopens
  · rw [hbarred] at hb
    cases hb

theorem openAfter_of_closes (hcloses : t.closes = true) :
    openAfter barred (n + 1) (t :: rest) = openAfter barred n rest := by
  rw [openAfter_cons (by simp), levelBehind_of_closes hcloses, Nat.add_sub_cancel]

theorem openAfter_of_kind (hkind : t.kind ≠ .symbol) (hbarred : barred t = false) :
    openAfter barred n (t :: rest) = openAfter barred n rest := by
  rw [openAfter_cons, levelBehind_of_kind hkind]
  rintro ⟨_, hcloses | hb⟩
  · exact hkind (Token.kind_of_closes hcloses)
  · rw [hbarred] at hb
    cases hb

theorem openAfter_append (barred : Token → Bool) (n : Nat) (ts us : List Token) :
    openAfter barred n (ts ++ us) = (openAfter barred n ts).bind (openAfter barred · us) := by
  induction ts generalizing n with
  | nil => rfl
  | cons t rest ih =>
    simp only [List.cons_append, openAfter]
    split
    · rfl
    · exact ih _

/-- Tokens that leave a number of groups open have done so at every place among them. -/
theorem exists_of_openAfter_append (h : openAfter barred n (ts ++ us) = some m) :
    ∃ l, openAfter barred n ts = some l ∧ openAfter barred l us = some m := by
  rw [openAfter_append] at h
  exact Option.bind_eq_some_iff.1 h

/-- With more groups open before them, tokens leave as many more open; and what is barred outside
all groups does not matter then. -/
theorem openAfter_add (h : openAfter barred n ts = some m)
    (hbarred : k = 0 → ∀ t, barred' t = true → barred t = true) :
    openAfter barred' (n + k) ts = some (m + k) := by
  induction ts generalizing n with
  | nil =>
    cases h
    rfl
  | cons t rest ih =>
    simp only [openAfter] at h
    split at h
    · cases h
    · next hfree =>
      rw [openAfter_cons, levelBehind_add fun hn => hfree ⟨hn.1, .inl hn.2⟩]
      · exact ih h
      · rintro ⟨hn, hcloses | hb⟩
        · exact hfree ⟨by omega, .inl hcloses⟩
        · exact hfree ⟨by omega, .inr (hbarred (by omega) t hb)⟩

theorem Undivided.balanced (h : Undivided ts) : Balanced ts :=
  openAfter_add (k := 0) h fun _ t ht => by cases ht

/-- Balanced tokens inside a group leave the number of open groups as it is. -/
theorem Balanced.openAfter (h : Balanced ts) : openAfter barred (n + 1) ts = some (n + 1) := by
  rw [← Nat.zero_add (n + 1)]
  exact openAfter_add h fun hn => absurd hn (Nat.succ_ne_zero n)

theorem Undivided.openAfter (h : Undivided ts) : openAfter Token.separates n ts = some n := by
  rw [← Nat.zero_add n]
  exact openAfter_add h fun _ _ ht => ht

theorem undivided_nil : Undivided [] := rfl

theorem Undivided.append (h : Undivided ts) (h' : Undivided us) : Undivided (ts ++ us) := by
  rw [Undivided, openAfter_append, h]
  exact h'

theorem Balanced.append (h : Balanced ts) (h' : Balanced us) : Balanced (ts ++ us) := by
  rw [Balanced, openAfter_append, h]
  exact h'

theorem undivided_cons_of_kind (hkind : t.kind ≠ .symbol) :
    Undivided (t :: rest) ↔ Undivided rest := by
  rw [Undivided, openAfter_of_kind hkind, Undivided]
  rw [← Bool.not_eq_true]
  exact fun hseparates => hkind (Token.kind_of_separates hseparates)

theorem balanced_cons_of_separates (hseparates : t.separates = true) :
    Balanced (t :: rest) ↔ Balanced rest := by
  rw [Balanced, openAfter_cons, levelBehind_of_separates hseparates, Balanced]
  simp [Token.not_closes_of_separates hseparates]

/-- A group is undivided, whatever commas stand in it. -/
theorem undivided_group {first last : Token} (hopens : first.opens = true) (h : Balanced ts)
    (hcloses : last.closes = true) : Undivided (first :: (ts ++ [last])) := by
  rw [Undivided, openAfter_of_opens hopens (Token.not_separates_of_opens hopens), openAfter_append,
    Balanced.openAfter h, Option.bind_some, openAfter_of_closes hcloses]
  rfl

/-! ## How deeply groups nest -/

theorem le_nestingFrom (n : Nat) (ts : List Token) : n ≤ nestingFrom n ts := by
  cases ts with
  | nil => exact Nat.le_refl n
  | cons t rest => exact Nat.le_max_left ..

theorem nestingFrom_append (h : openAfter barred n ts = some m) :
    nestingFrom n (ts ++ us) = max (nestingFrom n ts) (nestingFrom m us) := by
  induction ts generalizing n with
  | nil =>
    cases h
    exact (Nat.max_eq_right (le_nestingFrom m us)).symm
  | cons t rest ih =>
    simp only [openAfter] at h
    split at h
    · cases h
    · simp only [List.cons_append, nestingFrom, ih h]
      omega

/-! ## Passing balanced tokens -/

/-- The search for a closing parenthesis passes tokens that close no group but their own. -/
theorem enclosed?_append (h : openAfter (fun _ => false) n ts = some m) :
    enclosed? n (ts ++ rest) = (enclosed? m rest).map fun (run, r) => (ts ++ run, r) := by
  induction ts generalizing n with
  | nil =>
    cases h
    rw [List.nil_append]
    cases enclosed? m rest <;> rfl
  | cons t ts ih =>
    have hcons : ∀ r : Option (List Token × Token × List Token),
        ((r.map fun (run, r) => (ts ++ run, r)).map fun (run, r) => (t :: run, r)) =
          r.map fun (run, r) => (t :: (ts ++ run), r) := by
      intro r
      cases r <;> rfl
    simp only [openAfter] at h
    split at h
    · cases h
    · next hfree =>
      have hrest := ih h
      rw [levelBehind] at hrest
      rw [List.cons_append, enclosed?.eq_def]
      dsimp only
      split
      · next hopens =>
        rw [if_pos hopens] at hrest
        rw [hrest, hcons]
        rfl
      · next hopens =>
        rw [if_neg hopens] at hrest
        split
        · next hcloses =>
          rw [if_pos hcloses] at hrest
          cases n with
          | zero => exact absurd ⟨rfl, .inl hcloses⟩ hfree
          | succ n =>
            rw [Nat.add_sub_cancel] at hrest
            dsimp only
            rw [hrest, hcons]
            rfl
        · next hcloses =>
          rw [if_neg hcloses] at hrest
          rw [hrest, hcons]
          rfl

/-- The group at the front is found from its two parentheses. -/
theorem take_of_balanced {first last : Token} (hopens : first.opens = true) (h : Balanced ts)
    (hcloses : last.closes = true) :
    take (first :: (ts ++ last :: rest)) = .ok (ts, rest) := by
  have hlast : enclosed? 0 (last :: rest) = some ([], last, rest) := by
    rw [enclosed?, if_neg (by simp [Token.not_opens_of_closes hcloses]), if_pos hcloses]
  rw [take, if_neg (by simp [hopens]), enclosed?_append h, hlast]
  simp

/-- The splitting of arguments passes tokens that close no group but their own and have no comma
outside them. -/
theorem splitFrom_append {current : List Token} (h : openAfter Token.separates n ts = some m) :
    splitFrom n current (ts ++ rest) = splitFrom m (ts.reverse ++ current) rest := by
  induction ts generalizing n current with
  | nil =>
    cases h
    rfl
  | cons t ts ih =>
    simp only [openAfter] at h
    split at h
    · cases h
    · next hfree =>
      have hrest := @ih (levelBehind n t) (t :: current) h
      rw [levelBehind] at hrest
      rw [List.reverse_cons, List.append_assoc, List.singleton_append, List.cons_append,
        splitFrom.eq_def]
      dsimp only
      split
      · next hopens =>
        rw [if_pos hopens] at hrest
        exact hrest
      · next hopens =>
        rw [if_neg hopens] at hrest
        split
        · next hcloses =>
          rw [if_pos hcloses] at hrest
          cases n with
          | zero => exact absurd ⟨rfl, .inl hcloses⟩ hfree
          | succ n => exact hrest
        · next hcloses =>
          rw [if_neg hcloses] at hrest
          rw [if_neg]
          · exact hrest
          · intro hcomma
            simp only [Bool.and_eq_true, beq_iff_eq] at hcomma
            exact hfree ⟨hcomma.2, .inr hcomma.1⟩

/-- Undivided runs with commas between them are split at these commas. -/
theorem splitFrom_of_joined {args : List (List Token)} (h : Joined ts args)
    (hargs : ∀ arg ∈ args, arg ≠ [] ∧ Undivided arg) : splitFrom 0 [] ts = .ok args := by
  induction h with
  | last arg =>
    have harg := (hargs arg (List.mem_singleton_self arg)).2
    have hsplit : splitFrom 0 [] (arg ++ []) = splitFrom 0 (arg.reverse ++ []) [] :=
      splitFrom_append harg
    rw [List.append_nil, List.append_nil] at hsplit
    rw [hsplit, splitFrom, if_pos rfl, List.reverse_reverse]
  | @cons t rest others arg hseparates hrest ih =>
    obtain ⟨hne, harg⟩ := hargs arg List.mem_cons_self
    have hothers : splitFrom 0 [] rest = .ok others :=
      ih fun arg harg => hargs arg (List.mem_cons_of_mem _ harg)
    have hmore : rest ≠ [] := by
      intro hnil
      generalize hothers : others = args at hrest
      cases hrest with
      | last => exact (hargs rest (by simp [hothers])).1 hnil
      | cons arg' _ _ => simp at hnil
    rw [splitFrom_append harg, List.append_nil, splitFrom.eq_def]
    dsimp only
    rw [if_neg (by simp [Token.not_opens_of_separates hseparates]),
      if_neg (by simp [Token.not_closes_of_separates hseparates]), if_pos (by simp [hseparates]),
      if_neg (by simpa using hne), if_neg (by simpa using hmore), hothers, List.reverse_reverse]
    rfl

theorem arguments_of_joined {args : List (List Token)} (h : Joined ts args) (hne : ts ≠ [])
    (hargs : ∀ arg ∈ args, arg ≠ [] ∧ Undivided arg) : arguments ts = .ok args := by
  rw [arguments, if_neg (by simpa using hne)]
  exact splitFrom_of_joined h hargs

end Spreadsheet.Group
