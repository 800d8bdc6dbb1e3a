import Spreadsheet.Proofs.Formula.Acceptance
import Spreadsheet.Proofs.Formula.Climb
import Spreadsheet.Proofs.Formula.Reading

/-!
# The nesting limit

How deeply a tree nests is how many groups and calls lie on one of its branches. Grafting turns the
tree of a run around, but it moves no group and no call into another one, so a tree nests as deeply
as the parentheses of its tokens. The limit stops the reading of a group or call at its first token,
before anything else in it is looked at; up to there, reading within a limit does what reading
within a greater one does.

## Main results

* `Grammar.Run.nestingFrom_eq`: a tree nests as deeply as its tokens.
* `Run.read_orTooDeep`: a lower limit changes nothing but to report what lies below it.
* `Expr.ofTokens_eq_ok_iff_groupDepth_le`: the trees that are read within a limit are those that do
  not nest more deeply.
-/

namespace Spreadsheet

open Spreadsheet.Group (nestingFrom Undivided)

/-! ## How deeply trees nest -/

namespace Expr

mutual

/-- The greatest number of groups and calls on a branch of a tree. -/
def groupDepth : Expr → Nat
  | .constant _ | .reference _ => 0
  | .apply (.operator _) args => groupDepthOfAll args
  | .apply (.builtin _) args => groupDepthOfAll args + 1
  | .group inner => inner.groupDepth + 1

/-- The greatest number of groups and calls on a branch of one of several trees. -/
def groupDepthOfAll : List Expr → Nat
  | [] => 0
  | e :: rest => max e.groupDepth (groupDepthOfAll rest)

end

variable {op : Operator} {left right : Expr}

theorem groupDepth_operator (op : Operator) (args : List Expr) :
    (operator op args).groupDepth = groupDepthOfAll args := by
  rw [groupDepth]

theorem groupDepthOfAll_one (e : Expr) : groupDepthOfAll [e] = e.groupDepth := by
  rw [groupDepthOfAll, groupDepthOfAll, Nat.max_zero]

theorem groupDepthOfAll_two (e f : Expr) :
    groupDepthOfAll [e, f] = max e.groupDepth f.groupDepth := by
  rw [groupDepthOfAll, groupDepthOfAll_one]

theorem groupDepth_place :
    (place op right left).groupDepth = max left.groupDepth right.groupDepth := by
  fun_induction place op right left with
  | case1 sign operand _ ih =>
    rw [groupDepth_operator, groupDepthOfAll_one, ih, groupDepth_operator, groupDepthOfAll_one]
  | case2 sign operand _ => rw [groupDepth_operator, groupDepthOfAll_two]
  | case3 left _ => rw [groupDepth_operator, groupDepthOfAll_two]

theorem groupDepth_join :
    (join left op right).groupDepth = max left.groupDepth right.groupDepth := by
  rw [join]
  split
  · rw [groupDepth_place, groupDepth_operator, groupDepthOfAll_one]
  · exact groupDepth_place

/-- Grafting puts nothing into another group or call. -/
theorem groupDepth_graft :
    (graft left op right).groupDepth = max left.groupDepth right.groupDepth := by
  fun_induction graft left op right with
  | case1 inner first others _ ih =>
    rw [groupDepth_operator, groupDepth_operator, groupDepthOfAll, groupDepthOfAll, ih,
      Nat.max_assoc]
  | case2 inner first others _ => exact groupDepth_join
  | case3 right _ => exact groupDepth_join

end Expr

/-! ## Trees nest as deeply as their tokens -/

namespace Grammar

mutual

theorem Primary.nestingFrom_eq {n : Nat} {ts : List Token} {e : Expr} (h : Primary ts e) :
    nestingFrom n ts = n + e.groupDepth := by
  match h with
  | .constant hkind _ =>
    rw [nestingFrom, Group.levelBehind_of_kind (by simp [hkind]), nestingFrom, Nat.max_self,
      Expr.groupDepth, Nat.add_zero]
  | .cell hkind =>
    rw [nestingFrom, Group.levelBehind_of_kind (by simp [hkind]), nestingFrom, Nat.max_self,
      Expr.groupDepth, Nat.add_zero]
  | .call hkind hname hopens h hcloses =>
    rw [nestingFrom, Group.levelBehind_of_kind (by simp [hkind]),
      Run.nestingFrom_group hopens h.phrase.balanced hcloses, h.nestingFrom_eq, nestingFrom,
      Expr.groupDepth]
    omega
  | .group hopens h hcloses =>
    rw [Run.nestingFrom_group hopens h.phrase.undivided.balanced hcloses, h.nestingFrom_eq,
      nestingFrom, Expr.groupDepth]
    omega

theorem Operand.nestingFrom_eq {n : Nat} {ts : List Token} {e : Expr} (h : Operand ts e) :
    nestingFrom n ts = n + e.groupDepth := by
  match h with
  | .plain h => exact h.nestingFrom_eq
  | .signed hkind hsign h =>
    rw [nestingFrom, Group.levelBehind_of_kind (by simp [hkind]), h.nestingFrom_eq,
      Expr.groupDepth_operator, Expr.groupDepthOfAll_one]
    omega

/-- A tree nests as deeply as its tokens. -/
theorem Run.nestingFrom_eq {n : Nat} {ts : List Token} {e : Expr} {items : List Item}
    (h : Run ts e items) : nestingFrom n ts = n + (e.graftAll items).groupDepth := by
  match h with
  | .mk hoperand hbehind =>
    rw [hbehind.nesting_eq n, Group.nestingFrom_append hoperand.undivided.openAfter,
      hoperand.nestingFrom_eq]

/-- What stands behind an operand adds the branches of its own groups and calls. -/
theorem Behind.nesting_eq {ts : List Token} {items : List Item} {left : Expr} (n : Nat)
    (h : Behind ts items) :
    n + (left.graftAll items).groupDepth = max (n + left.groupDepth) (nestingFrom n ts) := by
  match h with
  | .nil =>
    rw [Expr.graftAll, nestingFrom]
    omega
  | .percent hkind htext h =>
    have hroom := Group.le_nestingFrom n
    rw [Expr.graftAll, h.nesting_eq n, nestingFrom, Group.levelBehind_of_kind (by simp [hkind]),
      Expr.groupDepth_operator, Expr.groupDepthOfAll_one]
    omega
  | .binary hkind hop htext h =>
    rw [Expr.graftAll, Expr.groupDepth_graft, nestingFrom,
      Group.levelBehind_of_kind (by simp [hkind]), h.nestingFrom_eq]
    omega

theorem Arguments.nestingFrom_eq {n : Nat} {ts : List Token} {es : List Expr}
    (h : Arguments ts es) : nestingFrom n ts = n + Expr.groupDepthOfAll es := by
  match h with
  | .none => rw [nestingFrom, Expr.groupDepthOfAll, Nat.add_zero]
  | .some h => exact h.nestingFrom_eq

theorem Several.nestingFrom_eq {n : Nat} {ts : List Token} {es : List Expr} (h : Several ts es) :
    nestingFrom n ts = n + Expr.groupDepthOfAll es := by
  match h with
  | .last h => rw [h.nestingFrom_eq, Expr.groupDepthOfAll_one]
  | .cons h hseparates hrest =>
    rw [Group.nestingFrom_append h.phrase.undivided.openAfter, nestingFrom,
      Group.levelBehind_of_separates hseparates, h.nestingFrom_eq, hrest.nestingFrom_eq,
      Expr.groupDepthOfAll]
    omega

end

end Grammar

/-! ## Reading within two limits -/

namespace Run

variable {lower upper depth : Nat} {t : Token} {ts us : List Token}

theorem subset_of_front? {limit : Nat} {behind : List Token} {e : Expr}
    (h : front? limit depth ts = .ok (some (e, behind))) : behind ⊆ ts := by
  rw [front?] at h
  rcases hoperand : operand? limit depth ts with err | _ | ⟨first, rest, hrest⟩
  · rw [hoperand] at h
    cases h
  · rw [hoperand] at h
    cases h
  · rw [hoperand] at h
    cases h
    exact subset_of_operand? hoperand

section OrTooDeep

variable {α β : Type}

/-- A result is another one, or it reports that one of the tokens lies below the limit. There are
more tokens than levels above the limit then. -/
def OrTooDeep (lower depth : Nat) (ts : List Token) (within result : Except FormulaError α) :
    Prop :=
  within = result ∨ lower < depth + ts.length ∧
    ∃ t ∈ ts, within = .error (.parse (.tooDeep t.text t.position lower))

theorem OrTooDeep.refl (result : Except FormulaError α) : OrTooDeep lower depth ts result result :=
  .inl rfl

/-- What holds of some tokens holds of more of them, or of the same ones with those that enclose
them. -/
theorem OrTooDeep.mono {inside : Nat} {within result : Except FormulaError α}
    (h : OrTooDeep lower inside us within result) (hsubset : us ⊆ ts)
    (hlength : inside + us.length ≤ depth + ts.length) :
    OrTooDeep lower depth ts within result := by
  rcases h with h | ⟨hlong, t, ht, herror⟩
  · exact .inl h
  · exact .inr ⟨Nat.lt_of_lt_of_le hlong hlength, t, hsubset ht, herror⟩

theorem OrTooDeep.bind {within result : Except FormulaError α}
    {f g : α → Except FormulaError β} (h : OrTooDeep lower depth ts within result)
    (hf : ∀ a, result = .ok a → OrTooDeep lower depth ts (f a) (g a)) :
    OrTooDeep lower depth ts (within >>= f) (result >>= g) := by
  rcases h with rfl | ⟨hlong, t, ht, rfl⟩
  · cases within with
    | error e => exact .refl _
    | ok a => exact hf a rfl
  · exact .inr ⟨hlong, t, ht, rfl⟩

theorem deeper_orTooDeep (hle : lower ≤ upper) (ht : t ∈ ts) :
    OrTooDeep lower depth ts (deeper lower depth t) (deeper upper depth t) := by
  rw [deeper]
  split
  · next hlt => exact .inl (deeper_of_lt (Nat.lt_of_lt_of_le hlt hle)).symm
  · next hlt =>
    have hroom : 0 < ts.length := List.length_pos_of_mem ht
    exact .inr ⟨by omega, t, ht, rfl⟩

end OrTooDeep

mutual

/-- Reading within a lower limit does what reading within a greater one does, or it reports what
lies below the lower limit. -/
theorem read_orTooDeep (hle : lower ≤ upper) (depth : Nat) (pending : List Pending)
    (last : Option Expr) (ts : List Token) :
    OrTooDeep lower depth ts (read lower depth pending last ts)
      (read upper depth pending last ts) := by
  match ts with
  | [] =>
    rw [read, read]
    exact .refl _
  | t :: rest =>
    have hrest : rest ⊆ t :: rest := List.subset_cons_self t rest
    have hlength : depth + rest.length ≤ depth + (t :: rest).length := by simp
    rw [read_cons, read_cons]
    -- Once the fronts agree, both readings take the same branch and go on behind it.
    rcases front?_orTooDeep hle depth (t :: rest) with heq | ⟨hlong, u, hu, herror⟩
    · rw [heq]
      rcases hfront : front? upper depth (t :: rest) with err | _ | ⟨first, behind⟩
      · exact .refl _
      · dsimp only
        split
        · exact .refl _
        · cases last with
          | none =>
            cases Operator.signOfSymbol? t.text with
            | none => exact .refl _
            | some sign =>
              dsimp only
              rcases front?_orTooDeep hle depth rest with heq | ⟨hlong, u, hu, herror⟩
              · rw [heq]
                rcases hoperand : front? upper depth rest with err | _ | ⟨first, behind⟩
                · exact .refl _
                · exact .refl _
                · have hlt := length_lt_of_front? hoperand
                  have hbehind := List.Subset.trans (subset_of_front? hoperand) hrest
                  exact (read_orTooDeep hle depth pending _ behind).mono hbehind
                    (by simp only [List.length_cons]; omega)
              · rw [herror]
                exact .inr ⟨by omega, u, hrest hu, rfl⟩
          | some left =>
            dsimp only
            split
            · exact (read_orTooDeep hle depth pending _ rest).mono hrest hlength
            · cases Operator.ofSymbol? t.text with
              | none => exact .refl _
              | some op => exact (read_orTooDeep hle depth _ none rest).mono hrest hlength
      · have hlt : behind.length < rest.length + 1 := length_lt_of_front? hfront
        dsimp only
        split
        · exact .refl _
        · exact (read_orTooDeep hle depth pending _ behind).mono (subset_of_front? hfront)
            (by simp only [List.length_cons]; omega)
    · rw [herror]
      exact .inr ⟨hlong, u, hu, rfl⟩
termination_by 2 * ts.length + 1

/-- The limit is looked at on the first token of a group or call, before anything else in it. -/
theorem front?_orTooDeep (hle : lower ≤ upper) (depth : Nat) (ts : List Token) :
    OrTooDeep lower depth ts (front? lower depth ts) (front? upper depth ts) := by
  match ts with
  | [] =>
    rw [front?_nil, front?_nil]
    exact .refl _
  | t :: rest =>
    cases hkind : t.kind with
    | constant =>
      rw [front?_constant hkind, front?_constant hkind]
      exact .refl _
    | cell =>
      rw [front?_cell hkind, front?_cell hkind]
      exact .refl _
    | operator =>
      rw [front?_operator hkind, front?_operator hkind]
      exact .refl _
    | function =>
      rw [front?_function hkind, front?_function hkind]
      cases Builtin.ofName? t.text with
      | none => exact .refl _
      | some f =>
        dsimp only
        split
        · exact .refl _
        · refine (deeper_orTooDeep hle List.mem_cons_self).bind fun inside hinside => ?_
          obtain ⟨_, rfl⟩ := deeper_eq_ok hinside
          cases htake : Group.take rest with
          | error err => exact .refl _
          | ok p =>
            obtain ⟨inner, behind⟩ := p
            change OrTooDeep lower depth (t :: rest)
              ((Group.arguments inner).mapError FormulaError.parse >>= _)
              ((Group.arguments inner).mapError FormulaError.parse >>= _)
            cases hargs : Group.arguments inner with
            | error err => exact .refl _
            | ok args =>
              have hspread := Group.spread_arguments hargs
              have hlength := Group.length_take htake
              have hall : ∀ arg ∈ args, arg ⊆ t :: rest := fun arg harg =>
                List.Subset.trans (Group.subset_of_arguments hargs harg)
                  (List.subset_cons_of_subset t (Group.subset_of_take htake))
              exact (readAll_orTooDeep hle (depth + 1) args hall
                (by simp only [List.length_cons]; omega)).bind fun es _ => .refl _
    | symbol =>
      rw [front?_symbol hkind, front?_symbol hkind]
      split
      · exact .refl _
      · refine (deeper_orTooDeep hle List.mem_cons_self).bind fun inside hinside => ?_
        obtain ⟨_, rfl⟩ := deeper_eq_ok hinside
        cases htake : Group.take (t :: rest) with
        | error err => exact .refl _
        | ok p =>
          obtain ⟨inner, behind⟩ := p
          have hlength := Group.length_take htake
          have : inner.length < rest.length + 1 := Group.length_lt_of_take htake
          change OrTooDeep lower depth (t :: rest)
            (if inner.isEmpty then _ else read lower (depth + 1) [] none inner >>= _)
            (if inner.isEmpty then _ else read upper (depth + 1) [] none inner >>= _)
          split
          · exact .refl _
          · exact ((read_orTooDeep hle (depth + 1) [] none inner).mono
              (Group.subset_of_take htake) (by omega)).bind fun e _ => .refl _
termination_by 2 * ts.length

-- The arguments of a call lie one level below its tokens, and are shorter than these by at least
-- its parentheses: so the bound on the lengths is kept.
theorem readAll_orTooDeep (hle : lower ≤ upper) (inside : Nat) (args : List (List Token))
    {depth : Nat} {ts : List Token} (hall : ∀ arg ∈ args, arg ⊆ ts)
    (hlength : inside + Group.spread args ≤ depth + ts.length) :
    OrTooDeep lower depth ts (readAll lower inside args) (readAll upper inside args) := by
  match args with
  | [] =>
    rw [readAll, readAll]
    exact .refl _
  | arg :: others =>
    have hspread := Group.spread_cons arg others
    obtain ⟨harg, hothers⟩ := List.forall_mem_cons.1 hall
    have hread : OrTooDeep lower depth ts _ _ :=
      (read_orTooDeep hle inside [] none arg).mono harg (by omega)
    have hrest : OrTooDeep lower depth ts _ _ :=
      readAll_orTooDeep hle inside others hothers (by omega)
    rw [readAll, readAll]
    rcases hread with heq | ⟨hlong, u, hu, herror⟩
    · rw [heq]
      cases read upper inside [] none arg with
      | error err => exact .refl _
      | ok e =>
        rcases hrest with heq | ⟨hlong, u, hu, herror⟩
        · rw [heq]
          exact .refl _
        · rw [herror]
          exact .inr ⟨hlong, u, hu, rfl⟩
    · rw [herror]
      exact .inr ⟨hlong, u, hu, rfl⟩
termination_by 2 * Group.spread args

end

end Run

namespace Expr

variable {tokens : List Token} {limit : Nat} {e : Expr}

/-- Tokens that are read nest as deeply as their tree. -/
theorem nesting_eq_groupDepth (h : ofTokens tokens limit = .ok e) :
    Group.nesting tokens = e.groupDepth := by
  obtain ⟨first, items, hrun, rfl⟩ := derives_of_ofTokens h
  rw [Group.nesting, hrun.nestingFrom_eq, Nat.zero_add]

/-- Within a lower limit, a tree is read if and only if it does not nest more deeply. -/
theorem ofTokens_eq_ok_iff_of_ofTokens {upper : Nat} (h : ofTokens tokens upper = .ok e) :
    ofTokens tokens limit = .ok e ↔ e.groupDepth ≤ limit := by
  have hnesting := nesting_eq_groupDepth h
  constructor
  · intro hlimit
    rw [← hnesting]
    exact nesting_le_of_ofTokens hlimit
  · intro hle
    exact (ofTokens_eq_ok_iff (Nat.le_trans (Nat.le_of_eq hnesting) hle)).2 (derives_of_ofTokens h)

theorem ofTokens_orTooDeep {lower upper : Nat} (hle : lower ≤ upper) (tokens : List Token) :
    Run.OrTooDeep lower 0 tokens (ofTokens tokens lower) (ofTokens tokens upper) := by
  rw [ofTokens, ofTokens]
  split
  · exact .refl _
  · exact Run.read_orTooDeep hle 0 [] none tokens

/-- A limit as great as the number of tokens is never felt. -/
theorem ofTokens_eq_of_length_le {upper : Nat} (hlimit : tokens.length ≤ limit)
    (hle : limit ≤ upper) : ofTokens tokens limit = ofTokens tokens upper := by
  rcases ofTokens_orTooDeep hle tokens with h | ⟨hlong, _⟩
  · exact h
  · omega

/-- Raising the limit keeps the trees that are read. -/
theorem ofTokens_eq_ok_of_le {upper : Nat} (hle : limit ≤ upper)
    (h : ofTokens tokens limit = .ok e) : ofTokens tokens upper = .ok e := by
  have hnesting : e.groupDepth ≤ limit := by
    rw [← nesting_eq_groupDepth h]
    exact nesting_le_of_ofTokens h
  exact (ofTokens_eq_ok_iff_of_ofTokens h).2 (Nat.le_trans hnesting hle)

/-- The limit on groups and calls is exact. Let `unlimited` be as great as the number of tokens, so
that no greater limit makes a difference. The trees that are read within a limit are those that are
read without one and have no more groups and calls than that on a branch; for the others, the error
is that a token lies below the limit; and raising the limit keeps the trees that are read. -/
theorem ofTokens_eq_ok_iff_groupDepth_le {unlimited : Nat} (hlength : tokens.length ≤ unlimited) :
    (∀ more, unlimited ≤ more → ofTokens tokens more = ofTokens tokens unlimited) ∧
      (∀ limit e, ofTokens tokens limit = .ok e ↔
        ofTokens tokens unlimited = .ok e ∧ e.groupDepth ≤ limit) ∧
      (∀ limit e, ofTokens tokens unlimited = .ok e → limit < e.groupDepth → ∃ t ∈ tokens,
        ofTokens tokens limit = .error (.parse (.tooDeep t.text t.position limit))) ∧
      ∀ limit more e, limit ≤ more → ofTokens tokens limit = .ok e →
        ofTokens tokens more = .ok e := by
  refine ⟨fun more hle => (ofTokens_eq_of_length_le hlength hle).symm, fun limit e => ⟨?_, ?_⟩, ?_,
    fun limit more e hle h => ofTokens_eq_ok_of_le hle h⟩
  · intro h
    have hunlimited : ofTokens tokens unlimited = .ok e := by
      rcases Nat.le_total limit unlimited with hle | hle
      · exact ofTokens_eq_ok_of_le hle h
      · rw [ofTokens_eq_of_length_le hlength hle, h]
    exact ⟨hunlimited, (ofTokens_eq_ok_iff_of_ofTokens hunlimited).1 h⟩
  · rintro ⟨hunlimited, hle⟩
    exact (ofTokens_eq_ok_iff_of_ofTokens hunlimited).2 hle
  · intro limit e hunlimited hlt
    have hdeepest : e.groupDepth ≤ unlimited :=
      (ofTokens_eq_ok_iff_of_ofTokens hunlimited).1 hunlimited
    have hle : limit ≤ unlimited := by omega
    rcases ofTokens_orTooDeep hle tokens with h | ⟨_, t, ht, herror⟩
    · have : e.groupDepth ≤ limit :=
        (ofTokens_eq_ok_iff_of_ofTokens hunlimited).1 (h.trans hunlimited)
      omega
    · exact ⟨t, ht, herror⟩

end Expr

/-- A call with a group in it is read within two levels, and not within one. -/
theorem ofTokens_signedCallTokens_groupDepth :
    signedCallTokens.length ≤ 10 ∧
      ∃ e, Expr.ofTokens signedCallTokens 10 = .ok e ∧ e.groupDepth = 2 ∧
        Expr.ofTokens signedCallTokens 2 = .ok e ∧
        ∃ t ∈ signedCallTokens,
          Expr.ofTokens signedCallTokens 1 = .error (.parse (.tooDeep t.text t.position 1)) := by
  have hlength : signedCallTokens.length ≤ 10 := by decide
  obtain ⟨_, hread, hdeep, _⟩ := Expr.ofTokens_eq_ok_iff_groupDepth_le hlength
  have htree : Expr.ofTokens signedCallTokens 10 = .ok (.operator .percent [.operator .negate
      [.apply (.builtin .sum) [.reference "A1", .group (.reference "B2")]]]) := by
    with_unfolding_all rfl
  exact ⟨hlength, _, htree, by decide +kernel, (hread 2 _).2 ⟨htree, by decide +kernel⟩,
    hdeep 1 _ htree (by decide +kernel)⟩

end Spreadsheet
