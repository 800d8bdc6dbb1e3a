import Spreadsheet.Proofs.Formula.Genuine
import Spreadsheet.Proofs.Formula.Precedence

/-!
# Trees that formulas have

Not every tree is that of a formula. Its constants are literals, no cell in it has the name of a
function, every operator has the operands that it needs, and there are no differences, since these
are made sums. Grafting keeps all of that, and so every tree that is read from a text is formed in
this way.

## Main results

* `formed_graft`: grafting keeps trees formed.
* `Expr.formed_of_ofFormula`: the tree of a formula is formed.
* `Expr.Formed.literal_of_mem_constants`: the constants of a formed tree are literals.
-/

namespace Spreadsheet

namespace Expr

/-- A tree as formulas have it. -/
inductive Formed : Expr → Prop
  | constant {v : Value} (h : v.Literal) : Formed (.constant v)
  | reference (s : Spelling) (h : Builtin.ofName? s.text = none) : Formed (.reference s.text)
  | call {f : Builtin} {es : List Expr} (h : ∀ e ∈ es, Formed e) : Formed (.apply (.builtin f) es)
  | sign {op : Operator} {e : Expr} (hsign : op.isSign = true) (h : Formed e) :
    Formed (.operator op [e])
  | percent {e : Expr} (h : Formed e) : Formed (.operator .percent [e])
  | between {op : Operator} {left right : Expr} (hfixity : op.fixity = .between)
    (hop : op ≠ .subtract) (hleft : Formed left) (hright : Formed right) :
    Formed (.operator op [left, right])
  | group {inner : Expr} (h : Formed inner) : Formed (.group inner)

/-! ## Constants -/

mutual

/-- The constants of a tree, from left to right. -/
def constants : Expr → List Value
  | .constant v => [v]
  | .reference _ => []
  | .apply _ args => constantsOfAll args
  | .group inner => inner.constants

/-- The constants of several trees. -/
def constantsOfAll : List Expr → List Value
  | [] => []
  | e :: rest => e.constants ++ constantsOfAll rest

end

theorem mem_constantsOfAll_iff {v : Value} {es : List Expr} :
    v ∈ constantsOfAll es ↔ ∃ e ∈ es, v ∈ e.constants := by
  induction es with
  | nil => simp [constantsOfAll]
  | cons first rest ih => simp [constantsOfAll, ih]

theorem mem_constantsOfAll {v : Value} {e : Expr} {es : List Expr} (he : e ∈ es)
    (hv : v ∈ e.constants) : v ∈ constantsOfAll es :=
  mem_constantsOfAll_iff.2 ⟨e, he, hv⟩

/-- The constants of a formed tree are literals. -/
theorem Formed.literal_of_mem_constants {e : Expr} (h : e.Formed) {v : Value}
    (hv : v ∈ e.constants) : v.Literal := by
  have hargs : ∀ {es : List Expr}, (∀ e ∈ es, v ∈ e.constants → v.Literal) →
      v ∈ constantsOfAll es → v.Literal := by
    intro es hes hmem
    obtain ⟨e, he, hv⟩ := mem_constantsOfAll_iff.1 hmem
    exact hes e he hv
  induction h with
  | constant h =>
    rw [constants, List.mem_singleton] at hv
    rw [hv]
    exact h
  | reference _ _ => cases hv
  | call _ ih => exact hargs (fun e he => ih e he) hv
  | sign _ _ ih => exact hargs (by simpa using ih) hv
  | percent _ ih => exact hargs (by simpa using ih) hv
  | between _ _ _ _ ihleft ihright => exact hargs (by simpa using ⟨ihleft, ihright⟩) hv
  | group _ ih =>
    rw [constants] at hv
    exact ih hv

variable {op : Operator} {left right : Expr}

/-! ## Grafting -/

theorem formed_place (hfixity : op.fixity = .between) (hop : op ≠ .subtract)
    (hleft : Formed left) (hright : Formed right) : Formed (place op right left) := by
  fun_induction place op right left with
  | case1 sign operand hsign ih =>
    rw [Bool.and_eq_true] at hsign
    cases hleft with
    | sign _ h => exact .sign hsign.1 (ih h)
    | percent h => cases hsign.1
  | case2 sign operand _ => exact .between hfixity hop hleft hright
  | case3 left _ => exact .between hfixity hop hleft hright

theorem formed_join (hfixity : op.fixity = .between) (hleft : Formed left)
    (hright : Formed right) : Formed (join left op right) := by
  rw [join]
  split
  · exact formed_place rfl (by decide) hleft (.sign rfl hright)
  · next hop => exact formed_place hfixity hop hleft hright

/-- Grafting keeps trees formed. -/
theorem formed_graft (hfixity : op.fixity = .between) (hleft : Formed left)
    (hright : Formed right) : Formed (graft left op right) := by
  fun_induction graft left op right with
  | case1 inner first others hdescends ih =>
    cases hright with
    | sign hsign h =>
      have hbefore : inner.fixity = .before := by simpa [Operator.isSign] using hsign
      simp [Operator.descends, hbefore] at hdescends
    | percent h => exact .percent (ih h)
    | between hfixity' hop h hother => exact .between hfixity' hop (ih h) hother
  | case2 inner first others _ => exact formed_join hfixity hleft hright
  | case3 right _ => exact formed_join hfixity hleft hright

end Expr

/-- Items with formed operands. -/
inductive Item.Formed : List Item → Prop
  | nil : Formed []
  | percent {items : List Item} (h : Formed items) : Formed (.percent :: items)
  | binary {op : Operator} {e : Expr} {items : List Item} (hfixity : op.fixity = .between)
    (he : e.Formed) (h : Formed items) : Formed (.binary op e :: items)

theorem Expr.formed_graftAll {left : Expr} {items : List Item} (hleft : left.Formed)
    (h : Item.Formed items) : (left.graftAll items).Formed := by
  induction h generalizing left with
  | nil => exact hleft
  | percent _ ih => exact ih (.percent hleft)
  | binary hfixity he _ ih => exact formed_graft hfixity hleft (ih he)

/-! ## Derivations -/

theorem Genuine.of_append {ts rest : List Token} (h : Genuine (ts ++ rest)) : Genuine rest := by
  induction ts with
  | nil => exact h
  | cons t ts ih =>
    cases h with
    | cons _ _ h => exact ih h

theorem Continues.of_operator {t : Token} {rest : List Token} (h : t.kind = .operator) :
    Continues (t :: rest) := by
  simp [Continues, h]

theorem Continues.of_symbol {t : Token} {rest : List Token} (h : t.kind = .symbol) :
    Continues (t :: rest) := by
  simp [Continues, h]

namespace Grammar

/-- What stands behind an operand goes on where the run goes on. -/
theorem Behind.continues {ts rest : List Token} {items : List Item} (h : Behind ts items)
    (hrest : Continues rest) : Continues (ts ++ rest) := by
  cases h with
  | nil => exact hrest
  | percent hkind _ _ => exact .of_operator hkind
  | binary hkind _ _ _ => exact .of_operator hkind

mutual

theorem Primary.formed {ts rest : List Token} {e : Expr} (h : Primary ts e)
    (hts : Genuine (ts ++ rest)) (hrest : Continues rest) : e.Formed := by
  match h with
  | .constant _ hvalue =>
    cases hts with
    | cons hliteral _ _ => exact .constant (hliteral _ hvalue)
  | .cell hkind =>
    cases hts with
    | cons _ hname _ =>
      obtain ⟨s, htext, hbuiltin⟩ := hname hkind
      rw [htext]
      exact .reference s (hbuiltin hrest)
  | @Primary.call t first last f inner es hkind hname hopens h hcloses =>
    rw [List.cons_append, List.cons_append, List.append_assoc, List.singleton_append] at hts
    cases hts with
    | cons _ _ hts =>
      cases hts with
      | cons _ _ hts =>
        exact .call (h.formed hts (.of_symbol (Token.kind_of_closes hcloses)))
  | @Primary.group first last inner e items hopens h hcloses =>
    rw [List.cons_append, List.append_assoc, List.singleton_append] at hts
    cases hts with
    | cons _ _ hts =>
      obtain ⟨he, hitems⟩ := h.formed hts (.of_symbol (Token.kind_of_closes hcloses))
      exact .group (Expr.formed_graftAll he hitems)

theorem Operand.formed {ts rest : List Token} {e : Expr} (h : Operand ts e)
    (hts : Genuine (ts ++ rest)) (hrest : Continues rest) : e.Formed := by
  match h with
  | .plain h => exact h.formed hts hrest
  | .signed _ hsign h =>
    cases hts with
    | cons _ _ hts => exact .sign (isSign_of_signOfSymbol? hsign) (h.formed hts hrest)

/-- The operands of a run are formed. -/
theorem Run.formed {ts rest : List Token} {e : Expr} {items : List Item} (h : Run ts e items)
    (hts : Genuine (ts ++ rest)) (hrest : Continues rest) : e.Formed ∧ Item.Formed items := by
  match h with
  | .mk hoperand hbehind =>
    rw [List.append_assoc] at hts
    exact ⟨hoperand.formed hts (hbehind.continues hrest), hbehind.formed hts.of_append hrest⟩

theorem Behind.formed {ts rest : List Token} {items : List Item} (h : Behind ts items)
    (hts : Genuine (ts ++ rest)) (hrest : Continues rest) : Item.Formed items := by
  match h with
  | .nil => exact .nil
  | .percent _ _ h =>
    cases hts with
    | cons _ _ hts => exact .percent (h.formed hts hrest)
  | .binary _ hop htext h =>
    cases hts with
    | cons _ _ hts =>
      obtain ⟨he, hitems⟩ := h.formed hts hrest
      exact .binary (fixity_of_ofSymbol? hop htext) he hitems

theorem Arguments.formed {ts rest : List Token} {es : List Expr} (h : Arguments ts es)
    (hts : Genuine (ts ++ rest)) (hrest : Continues rest) : ∀ e ∈ es, e.Formed := by
  match h with
  | .none => simp
  | .some h => exact h.formed hts hrest

theorem Several.formed {ts rest : List Token} {es : List Expr} (h : Several ts es)
    (hts : Genuine (ts ++ rest)) (hrest : Continues rest) : ∀ e ∈ es, e.Formed := by
  match h with
  | .last h =>
    obtain ⟨he, hitems⟩ := h.formed hts hrest
    simpa using Expr.formed_graftAll he hitems
  | .cons h hseparates hothers =>
    rw [List.append_assoc, List.cons_append] at hts
    obtain ⟨he, hitems⟩ := h.formed hts (.of_symbol (Token.kind_of_separates hseparates))
    cases hts.of_append with
    | cons _ _ hts =>
      exact List.forall_mem_cons.2
        ⟨Expr.formed_graftAll he hitems, hothers.formed hts hrest⟩

end

end Grammar

/-- The tree of a formula is formed. -/
theorem Expr.formed_of_ofFormula {text : String} {limit : Nat} {e : Expr}
    (h : ofFormula text limit = .ok e) : e.Formed := by
  rw [ofFormula] at h
  cases htokens : tokenize (formulaBody text) with
  | error err =>
    rw [htokens] at h
    cases h
  | ok tokens =>
    rw [htokens] at h
    obtain ⟨first, items, hrun, rfl⟩ := derives_of_ofTokens h
    have hgenuine : Genuine (tokens ++ []) := by
      rw [List.append_nil]
      exact genuine_of_tokenize htokens
    obtain ⟨he, hitems⟩ := hrun.formed hgenuine (by simp [Continues])
    exact formed_graftAll he hitems

end Spreadsheet
