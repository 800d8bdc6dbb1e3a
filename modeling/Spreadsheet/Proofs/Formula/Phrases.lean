import Spreadsheet.Proofs.Formula.Balance
import Spreadsheet.Proofs.Formula.Lexemes

/-!
# Phrases

The grammar of formulas in its usual form, about tokens alone. A run is a sequence of operands with
operators between them; an operand is a constant, a cell name, a call or a group, with at most one
sign before it and any number of percent signs behind it.

```text
run      := operand (operator operand)*
operand  := [sign] primary `%`*
primary  := constant | cell | function `(` [run (`,` run)*] `)` | `(` run `)`
```

## Main results

* `Phrase.Run.undivided`: parentheses in a run match, and its commas stand inside them.
* `Grammar.Run.phrase`: what derives from the grammar with a tree is a phrase.
* `Phrase.Run.exists_derivation`: a phrase of proper tokens derives from the grammar with a tree.
-/

namespace Spreadsheet

namespace Token

/-- Whether a token can stand before an operand as its sign. -/
def IsSign (t : Token) : Prop := t.kind = .operator ∧ (t.text = "+" ∨ t.text = "-")

/-- Whether a token is a percent sign. -/
def IsPercent (t : Token) : Prop := t.kind = .operator ∧ t.text = "%"

/-- Whether a token can stand between two operands. -/
def IsBinary (t : Token) : Prop := t.kind = .operator ∧ t.text ≠ "%"

end Token

namespace Phrase

mutual

/-- A run: operands with operators between them. -/
inductive Run : List Token → Prop
  | last {ts : List Token} (h : Operand ts) : Run ts
  | more {t : Token} {ts rest : List Token} (h : Operand ts) (hbinary : t.IsBinary)
    (hrest : Run rest) : Run (ts ++ t :: rest)

/-- An operand: a primary with at most one sign before it, and percent signs behind it. -/
inductive Operand : List Token → Prop
  | plain {ts percents : List Token} (h : Primary ts) (hpercents : ∀ t ∈ percents, t.IsPercent) :
    Operand (ts ++ percents)
  | signed {t : Token} {ts percents : List Token} (hsign : t.IsSign) (h : Primary ts)
    (hpercents : ∀ t ∈ percents, t.IsPercent) : Operand (t :: (ts ++ percents))

/-- A constant, a cell name, a call or a group. -/
inductive Primary : List Token → Prop
  | constant {t : Token} (hkind : t.kind = .constant) : Primary [t]
  | cell {t : Token} (hkind : t.kind = .cell) : Primary [t]
  | call {t first last : Token} {inner : List Token} (hkind : t.kind = .function)
    (hopens : first.opens = true) (h : Arguments inner) (hcloses : last.closes = true) :
    Primary (t :: first :: (inner ++ [last]))
  | group {first last : Token} {inner : List Token} (hopens : first.opens = true) (h : Run inner)
    (hcloses : last.closes = true) : Primary (first :: (inner ++ [last]))

/-- The arguments of a call: none, or runs with commas between them. -/
inductive Arguments : List Token → Prop
  | none : Arguments []
  | some {ts : List Token} (h : Several ts) : Arguments ts

/-- One argument or more. -/
inductive Several : List Token → Prop
  | last {ts : List Token} (h : Run ts) : Several ts
  | cons {t : Token} {ts rest : List Token} (h : Run ts) (hseparates : t.separates = true)
    (hrest : Several rest) : Several (ts ++ t :: rest)

end

/-! ## Parentheses in phrases -/

open Spreadsheet.Group (Balanced Undivided undivided_nil undivided_cons_of_kind undivided_group
  balanced_cons_of_separates)

theorem undivided_percents {percents : List Token} (h : ∀ t ∈ percents, t.IsPercent) :
    Undivided percents := by
  induction percents with
  | nil => exact undivided_nil
  | cons t rest ih =>
    rw [undivided_cons_of_kind (by simp [(h t List.mem_cons_self).1])]
    exact ih fun t ht => h t (List.mem_cons_of_mem _ ht)

mutual

/-- In a run parentheses match, and commas stand inside them. -/
theorem Run.undivided {ts : List Token} (h : Run ts) : Undivided ts := by
  match h with
  | .last h => exact h.undivided
  | .more h hbinary hrest =>
    exact h.undivided.append ((undivided_cons_of_kind (by simp [hbinary.1])).2 hrest.undivided)

theorem Operand.undivided {ts : List Token} (h : Operand ts) : Undivided ts := by
  match h with
  | .plain h hpercents => exact h.undivided.append (undivided_percents hpercents)
  | .signed hsign h hpercents =>
    rw [undivided_cons_of_kind (by simp [hsign.1])]
    exact h.undivided.append (undivided_percents hpercents)

theorem Primary.undivided {ts : List Token} (h : Primary ts) : Undivided ts := by
  match h with
  | .constant hkind => exact (undivided_cons_of_kind (by simp [hkind])).2 undivided_nil
  | .cell hkind => exact (undivided_cons_of_kind (by simp [hkind])).2 undivided_nil
  | .call hkind hopens h hcloses =>
    rw [undivided_cons_of_kind (by simp [hkind])]
    exact undivided_group hopens h.balanced hcloses
  | .group hopens h hcloses => exact undivided_group hopens h.undivided.balanced hcloses

/-- In the arguments of a call parentheses match. -/
theorem Arguments.balanced {ts : List Token} (h : Arguments ts) : Balanced ts := by
  match h with
  | .none => exact undivided_nil.balanced
  | .some h => exact h.balanced

theorem Several.balanced {ts : List Token} (h : Several ts) : Balanced ts := by
  match h with
  | .last h => exact h.undivided.balanced
  | .cons h hseparates hrest =>
    exact h.undivided.balanced.append ((balanced_cons_of_separates hseparates).2 hrest.balanced)

end

/-! ## Phrases have tokens -/

theorem Primary.ne_nil {ts : List Token} (h : Primary ts) : ts ≠ [] := by
  cases h <;> simp

theorem Operand.ne_nil {ts : List Token} (h : Operand ts) : ts ≠ [] := by
  cases h with
  | plain h _ => simp [h.ne_nil]
  | signed _ _ _ => simp

theorem Run.ne_nil {ts : List Token} (h : Run ts) : ts ≠ [] := by
  cases h with
  | last h => exact h.ne_nil
  | more _ _ _ => simp

theorem Several.ne_nil {ts : List Token} (h : Several ts) : ts ≠ [] := by
  cases h with
  | last h => exact h.ne_nil
  | cons _ _ _ => simp

end Phrase

/-! ## From derivations to phrases -/

namespace Phrase

/-- What stands behind an operand of a run: nothing, or an operator and a run. -/
inductive Tail : List Token → Prop
  | nil : Tail []
  | cons {t : Token} {ts : List Token} (hbinary : t.IsBinary) (h : Run ts) : Tail (t :: ts)

theorem Run.of_tail {ts rest : List Token} (h : Operand ts) (hrest : Tail rest) :
    Run (ts ++ rest) := by
  cases hrest with
  | nil =>
    rw [List.append_nil]
    exact .last h
  | cons hbinary hrun => exact .more h hbinary hrun

end Phrase

namespace Grammar

open Spreadsheet.Group (Undivided)

theorem isSign_of_signOfSymbol {t : Token} {sign : Operator} (hkind : t.kind = .operator)
    (h : Operator.signOfSymbol? t.text = some sign) : t.IsSign := by
  refine ⟨hkind, ?_⟩
  unfold Operator.signOfSymbol? at h
  split at h
  · next htext => exact .inl htext
  · next htext => exact .inr htext
  · cases h

mutual

/-- What derives from the grammar with a tree is a phrase. -/
theorem Run.phrase {ts : List Token} {e : Expr} {items : List Item} (h : Run ts e items) :
    Phrase.Run ts := by
  match h with
  | .mk h hbehind =>
    obtain ⟨percents, rest, rfl, hpercents, hrest⟩ := hbehind.phrase
    rw [← List.append_assoc]
    exact .of_tail (h.phrase hpercents) hrest

theorem Operand.phrase {ts percents : List Token} {e : Expr} (h : Operand ts e)
    (hpercents : ∀ t ∈ percents, t.IsPercent) : Phrase.Operand (ts ++ percents) := by
  match h with
  | .plain h => exact .plain h.phrase hpercents
  | .signed hkind hsign h => exact .signed (isSign_of_signOfSymbol hkind hsign) h.phrase hpercents

/-- Behind an operand stand percent signs, and then nothing or an operator with a run. -/
theorem Behind.phrase {ts : List Token} {items : List Item} (h : Behind ts items) :
    ∃ percents rest, ts = percents ++ rest ∧ (∀ t ∈ percents, t.IsPercent) ∧
      Phrase.Tail rest := by
  match h with
  | .nil => exact ⟨[], [], rfl, by simp, .nil⟩
  | .percent hkind htext h =>
    obtain ⟨percents, rest, rfl, hpercents, hrest⟩ := h.phrase
    exact ⟨_ :: percents, rest, rfl, List.forall_mem_cons.2 ⟨⟨hkind, htext⟩, hpercents⟩, hrest⟩
  | .binary hkind _ htext h => exact ⟨[], _, rfl, by simp, .cons ⟨hkind, htext⟩ h.phrase⟩

theorem Primary.phrase {ts : List Token} {e : Expr} (h : Primary ts e) : Phrase.Primary ts := by
  match h with
  | .constant hkind _ => exact .constant hkind
  | .cell hkind => exact .cell hkind
  | .call hkind _ hopens h hcloses => exact .call hkind hopens h.phrase hcloses
  | .group hopens h hcloses => exact .group hopens h.phrase hcloses

theorem Arguments.phrase {ts : List Token} {es : List Expr} (h : Arguments ts es) :
    Phrase.Arguments ts := by
  match h with
  | .none => exact .none
  | .some h => exact .some h.phrase

theorem Several.phrase {ts : List Token} {es : List Expr} (h : Several ts es) :
    Phrase.Several ts := by
  match h with
  | .last h => exact .last h.phrase
  | .cons h hseparates hrest => exact .cons h.phrase hseparates hrest.phrase

end

theorem Operand.undivided {ts : List Token} {e : Expr} (h : Operand ts e) : Undivided ts := by
  have hphrase : Phrase.Operand (ts ++ []) := h.phrase (by simp)
  rw [List.append_nil] at hphrase
  exact hphrase.undivided

end Grammar

/-! ## From phrases to derivations -/

namespace Phrase

open Grammar (Behind)

variable {t : Token}

theorem exists_value (hkind : t.kind = .constant) (h : t.Proper) : ∃ v, t.value = some v := by
  rw [Token.Proper, hkind] at h
  exact Option.isSome_iff_exists.1 h

theorem exists_builtin (hkind : t.kind = .function) (h : t.Proper) :
    ∃ f, Builtin.ofName? t.text = some f := by
  rw [Token.Proper, hkind] at h
  exact Option.isSome_iff_exists.1 h

theorem exists_operator (hkind : t.kind = .operator) (h : t.Proper) :
    ∃ op, Operator.ofSymbol? t.text = some op := by
  rw [Token.Proper, hkind] at h
  exact Option.isSome_iff_exists.1 h

theorem exists_sign (h : t.IsSign) : ∃ sign, Operator.signOfSymbol? t.text = some sign := by
  rcases h.2 with htext | htext
  · exact ⟨.identity, by rw [htext]; rfl⟩
  · exact ⟨.negate, by rw [htext]; rfl⟩

theorem exists_behind_percents {percents rest : List Token} {items : List Item}
    (hpercents : ∀ t ∈ percents, t.IsPercent) (hrest : Behind rest items) :
    ∃ items', Behind (percents ++ rest) items' := by
  induction percents with
  | nil => exact ⟨items, hrest⟩
  | cons t percents ih =>
    obtain ⟨⟨hkind, htext⟩, hothers⟩ := List.forall_mem_cons.1 hpercents
    obtain ⟨items', hbehind⟩ := ih hothers
    exact ⟨.percent :: items', .percent hkind htext hbehind⟩

mutual

/-- A run of proper tokens derives from the grammar. -/
theorem Run.exists_derivation {ts : List Token} (h : Run ts) (hproper : ∀ t ∈ ts, t.Proper) :
    ∃ e items, Grammar.Run ts e items := by
  match h with
  | .last h =>
    have hrun := h.exists_derivation hproper .nil
    rwa [List.append_nil] at hrun
  | .more h hbinary hrest =>
    rw [List.forall_mem_append, List.forall_mem_cons] at hproper
    obtain ⟨hfirst, hop, hothers⟩ := hproper
    obtain ⟨op, hsymbol⟩ := exists_operator hbinary.1 hop
    obtain ⟨e, items, hrun⟩ := hrest.exists_derivation hothers
    exact h.exists_derivation hfirst (.binary hbinary.1 hsymbol hbinary.2 hrun)

theorem Operand.exists_derivation {ts rest : List Token} {items : List Item} (h : Operand ts)
    (hproper : ∀ t ∈ ts, t.Proper) (hrest : Behind rest items) :
    ∃ e items', Grammar.Run (ts ++ rest) e items' := by
  match h with
  | .plain h hpercents =>
    obtain ⟨e, hprimary⟩ := h.exists_derivation (List.forall_mem_append.1 hproper).1
    obtain ⟨items', hbehind⟩ := exists_behind_percents hpercents hrest
    rw [List.append_assoc]
    exact ⟨e, items', .mk (.plain hprimary) hbehind⟩
  | .signed hsign h hpercents =>
    rw [List.forall_mem_cons, List.forall_mem_append] at hproper
    obtain ⟨sign, hsymbol⟩ := exists_sign hsign
    obtain ⟨e, hprimary⟩ := h.exists_derivation hproper.2.1
    obtain ⟨items', hbehind⟩ := exists_behind_percents hpercents hrest
    rw [← List.cons_append, List.append_assoc]
    exact ⟨_, items', .mk (.signed hsign.1 hsymbol hprimary) hbehind⟩

theorem Primary.exists_derivation {ts : List Token} (h : Primary ts)
    (hproper : ∀ t ∈ ts, t.Proper) : ∃ e, Grammar.Primary ts e := by
  match h with
  | .constant hkind =>
    obtain ⟨v, hvalue⟩ := exists_value hkind (hproper _ List.mem_cons_self)
    exact ⟨_, .constant hkind hvalue⟩
  | .cell hkind => exact ⟨_, .cell hkind⟩
  | .call hkind hopens h hcloses =>
    rw [List.forall_mem_cons, List.forall_mem_cons, List.forall_mem_append] at hproper
    obtain ⟨f, hname⟩ := exists_builtin hkind hproper.1
    obtain ⟨es, harguments⟩ := h.exists_derivation hproper.2.2.1
    exact ⟨_, .call hkind hname hopens harguments hcloses⟩
  | .group hopens h hcloses =>
    rw [List.forall_mem_cons, List.forall_mem_append] at hproper
    obtain ⟨e, items, hrun⟩ := h.exists_derivation hproper.2.1
    exact ⟨_, .group hopens hrun hcloses⟩

theorem Arguments.exists_derivation {ts : List Token} (h : Arguments ts)
    (hproper : ∀ t ∈ ts, t.Proper) : ∃ es, Grammar.Arguments ts es := by
  match h with
  | .none => exact ⟨[], .none⟩
  | .some h =>
    obtain ⟨es, hseveral⟩ := h.exists_derivation hproper
    exact ⟨es, .some hseveral⟩

theorem Several.exists_derivation {ts : List Token} (h : Several ts)
    (hproper : ∀ t ∈ ts, t.Proper) : ∃ es, Grammar.Several ts es := by
  match h with
  | .last h =>
    obtain ⟨e, items, hrun⟩ := h.exists_derivation hproper
    exact ⟨_, .last hrun⟩
  | .cons h hseparates hrest =>
    rw [List.forall_mem_append, List.forall_mem_cons] at hproper
    obtain ⟨e, items, hrun⟩ := h.exists_derivation hproper.1
    obtain ⟨es, hseveral⟩ := hrest.exists_derivation hproper.2.2
    exact ⟨_, .cons hrun hseparates hseveral⟩

end

end Phrase

end Spreadsheet
