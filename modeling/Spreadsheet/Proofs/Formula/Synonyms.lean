import Spreadsheet.Grid.Address
import Spreadsheet.Proofs.Formula.Acceptance
import Spreadsheet.Proofs.Formula.Grouping
import Mathlib.Data.List.Forall2

/-!
# Tokens that mean the same

What a token is read for is less than its text: a constant has a value, the name of a function says
which function it is, and the name of a cell is looked up by its canonical name. Tokens that agree
in this are synonymous. A list of tokens can be replaced by synonymous ones, one by one: it derives
from the grammar in the same way, to a tree with synonymous names in the same places.

## Main results

* `Expr.Synonymous.graftAll`: trees that are grafted from synonymous trees are synonymous.
* `Grammar.Run.exists_synonymous`: derivations are carried over to synonymous tokens.
* `Expr.exists_ofTokens_synonymous`: tokens are read like synonymous tokens.
-/

namespace Spreadsheet

/-! ## Lists that are related one by one -/

theorem exists_of_forall₂_append {α β : Type} {R : α → β → Prop} {l m : List α} {n : List β}
    (h : List.Forall₂ R (l ++ m) n) :
    ∃ first rest, n = first ++ rest ∧ List.Forall₂ R l first ∧ List.Forall₂ R m rest := by
  induction l generalizing n with
  | nil => exact ⟨[], n, rfl, .nil, h⟩
  | cons a l ih =>
    obtain ⟨b, others, hab, hothers, rfl⟩ := List.forall₂_cons_left_iff.1 h
    obtain ⟨first, rest, rfl, hfirst, hrest⟩ := ih hothers
    exact ⟨b :: first, rest, rfl, .cons hab hfirst, hrest⟩

/-! ## Tokens -/

namespace Token

/-- Tokens of one kind that stand for the same: the same symbol or operator, a constant of the same
value, a name of the same function, or a name that is looked up as the same cell. -/
structure Synonymous (t t' : Token) : Prop where
  kind : t'.kind = t.kind
  value : t.kind = .constant → t'.value = t.value
  text : t.kind = .symbol ∨ t.kind = .operator → t'.text = t.text
  function : t.kind = .function → Builtin.ofName? t'.text = Builtin.ofName? t.text
  cell : t.kind = .cell → canonicalName t'.text = canonicalName t.text

namespace Synonymous

variable {t t' : Token} (h : t.Synonymous t')
include h

theorem symm : t'.Synonymous t where
  kind := h.kind.symm
  value hkind := (h.value (h.kind ▸ hkind)).symm
  text hkind := (h.text (h.kind ▸ hkind)).symm
  function hkind := (h.function (h.kind ▸ hkind)).symm
  cell hkind := (h.cell (h.kind ▸ hkind)).symm

theorem isSymbol (s : String) : t'.isSymbol s = t.isSymbol s := by
  rw [Token.isSymbol, Token.isSymbol, h.kind]
  by_cases hkind : t.kind = .symbol
  · rw [h.text (.inl hkind)]
  · rw [beq_false_of_ne hkind, Bool.false_and, Bool.false_and]

theorem opens : t'.opens = t.opens := h.isSymbol "("

theorem closes : t'.closes = t.closes := h.isSymbol ")"

theorem separates : t'.separates = t.separates := h.isSymbol ","

theorem operator (hkind : t.kind = .operator) : t'.kind = .operator ∧ t'.text = t.text :=
  ⟨h.kind.trans hkind, h.text (.inr hkind)⟩

end Synonymous

end Token

/-- What is synonymous with a group is a group of synonymous tokens. -/
theorem Group.exists_synonymous {first last : Token} {inner ts : List Token}
    (h : List.Forall₂ Token.Synonymous (first :: (inner ++ [last])) ts) :
    ∃ first' inner' last', ts = first' :: (inner' ++ [last']) ∧ first.Synonymous first' ∧
      List.Forall₂ Token.Synonymous inner inner' ∧ last.Synonymous last' := by
  obtain ⟨first', _, hfirst, hrest, rfl⟩ := List.forall₂_cons_left_iff.1 h
  obtain ⟨inner', _, rfl, hinner, hend⟩ := exists_of_forall₂_append hrest
  obtain ⟨last', _, hlast, hnone, rfl⟩ := List.forall₂_cons_left_iff.1 hend
  cases hnone
  exact ⟨first', inner', last', rfl, hfirst, hinner, hlast⟩

/-- Groups nest alike in synonymous tokens. -/
theorem Group.nestingFrom_of_synonymous {n : Nat} {ts ts' : List Token}
    (h : List.Forall₂ Token.Synonymous ts ts') : nestingFrom n ts' = nestingFrom n ts := by
  induction h generalizing n with
  | nil => rfl
  | @cons t t' _ _ ht _ ih =>
    have hlevel : levelBehind n t' = levelBehind n t := by
      rw [levelBehind, levelBehind, ht.opens, ht.closes]
    rw [nestingFrom, nestingFrom, hlevel, ih]

/-! ## Trees -/

namespace Expr

mutual

/-- Trees that are the same but for cell names, which are looked up as the same cells. -/
inductive Synonymous : Expr → Expr → Prop
  | constant (v : Value) : Synonymous (.constant v) (.constant v)
  | reference {name name' : String} (h : canonicalName name' = canonicalName name) :
    Synonymous (.reference name) (.reference name')
  | apply (operation : Operation) {args args' : List Expr} (h : SynonymousAll args args') :
    Synonymous (.apply operation args) (.apply operation args')
  | group {inner inner' : Expr} (h : Synonymous inner inner') :
    Synonymous (.group inner) (.group inner')

/-- Such trees one by one. -/
inductive SynonymousAll : List Expr → List Expr → Prop
  | nil : SynonymousAll [] []
  | cons {e e' : Expr} {rest rest' : List Expr} (h : Synonymous e e')
    (hrest : SynonymousAll rest rest') : SynonymousAll (e :: rest) (e' :: rest')

end

theorem SynonymousAll.length_eq {es es' : List Expr} (h : SynonymousAll es es') :
    es'.length = es.length := by
  match h with
  | .nil => rfl
  | .cons _ hrest => simp [hrest.length_eq]

namespace Synonymous

variable {op : Operator} {left left' right right' : Expr}

theorem unary (h : right.Synonymous right') :
    (Expr.operator op [right]).Synonymous (.operator op [right']) :=
  .apply _ (.cons h .nil)

theorem binary (hleft : left.Synonymous left') (hright : right.Synonymous right') :
    (Expr.operator op [left, right]).Synonymous (.operator op [left', right']) :=
  .apply _ (.cons hleft (.cons hright .nil))

/-! ## Grafting -/

theorem place (hleft : left.Synonymous left') (hright : right.Synonymous right') :
    (Expr.place op right left).Synonymous (Expr.place op right' left') := by
  fun_induction Expr.place op right left generalizing left' with
  | case1 sign operand hsign ih =>
    cases hleft with
    | apply _ hargs =>
      cases hargs with
      | cons hoperand hnone =>
        cases hnone
        rw [Expr.place, if_pos hsign]
        exact (ih hoperand).unary
  | case2 sign operand hsign =>
    cases hleft with
    | apply _ hargs =>
      cases hargs with
      | cons hoperand hnone =>
        cases hnone
        rw [Expr.place, if_neg hsign]
        exact hoperand.unary.binary hright
  | case3 left hplain =>
    rw [place_of_not_operator]
    · exact hleft.binary hright
    · rintro sign operand rfl
      cases hleft with
      | apply _ hargs =>
        cases hargs with
        | cons _ hnone =>
          cases hnone
          exact hplain sign _ rfl

theorem join (hleft : left.Synonymous left') (hright : right.Synonymous right') :
    (Expr.join left op right).Synonymous (Expr.join left' op right') := by
  rw [Expr.join, Expr.join]
  split
  · exact hleft.place hright.unary
  · exact hleft.place hright

theorem graft (hleft : left.Synonymous left') (hright : right.Synonymous right') :
    (Expr.graft left op right).Synonymous (Expr.graft left' op right') := by
  fun_induction Expr.graft left op right generalizing right' with
  | case1 inner first others hdescends ih =>
    cases hright with
    | apply _ hargs =>
      cases hargs with
      | cons hfirst hothers =>
        rw [Expr.graft, if_pos hdescends]
        exact .apply _ (.cons (ih hfirst) hothers)
  | case2 inner first others hdescends =>
    cases hright with
    | apply _ hargs =>
      cases hargs with
      | cons hfirst hothers =>
        rw [Expr.graft, if_neg hdescends]
        exact hleft.join (.apply _ (.cons hfirst hothers))
  | case3 right hplain =>
    rw [graft_of_not_operator]
    · exact hleft.join hright
    · rintro inner first others rfl
      cases hright with
      | apply _ hargs =>
        cases hargs with
        | cons _ _ => exact hplain inner _ _ rfl

end Synonymous

end Expr

/-- Items with the same operators and with synonymous operands. -/
inductive Item.Synonymous : Item → Item → Prop
  | percent : Synonymous .percent .percent
  | binary (op : Operator) {operand operand' : Expr} (h : operand.Synonymous operand') :
    Synonymous (.binary op operand) (.binary op operand')

/-- Trees that are grafted from synonymous trees are synonymous. -/
theorem Expr.Synonymous.graftAll {left left' : Expr} {items items' : List Item}
    (hleft : left.Synonymous left') (hitems : List.Forall₂ Item.Synonymous items items') :
    (left.graftAll items).Synonymous (left'.graftAll items') := by
  induction hitems generalizing left left' with
  | nil => exact hleft
  | cons hitem _ ih =>
    cases hitem with
    | percent => exact ih hleft.unary
    | binary op hoperand => exact hleft.graft (ih hoperand)

/-! ## Derivations -/

namespace Grammar

mutual

theorem Primary.exists_synonymous {ts ts' : List Token} {e : Expr} (h : Primary ts e)
    (hts : List.Forall₂ Token.Synonymous ts ts') :
    ∃ e', Primary ts' e' ∧ e.Synonymous e' := by
  match h with
  | .constant hkind hvalue =>
    obtain ⟨t', _, ht, hnone, rfl⟩ := List.forall₂_cons_left_iff.1 hts
    cases hnone
    exact ⟨_, .constant (ht.kind.trans hkind) ((ht.value hkind).trans hvalue), .constant _⟩
  | .cell hkind =>
    obtain ⟨t', _, ht, hnone, rfl⟩ := List.forall₂_cons_left_iff.1 hts
    cases hnone
    exact ⟨_, .cell (ht.kind.trans hkind), .reference (ht.cell hkind)⟩
  | @Primary.call t first last f inner es hkind hname hopens h hcloses =>
    obtain ⟨t', _, ht, hgroup, rfl⟩ := List.forall₂_cons_left_iff.1 hts
    obtain ⟨first', inner', last', rfl, hfirst, hinner, hlast⟩ := Group.exists_synonymous hgroup
    obtain ⟨es', harguments, hes⟩ := h.exists_synonymous hinner
    exact ⟨_, .call (ht.kind.trans hkind) ((ht.function hkind).trans hname)
      (hfirst.opens.trans hopens) harguments (hlast.closes.trans hcloses), .apply _ hes⟩
  | @Primary.group first last inner e items hopens h hcloses =>
    obtain ⟨first', inner', last', rfl, hfirst, hinner, hlast⟩ := Group.exists_synonymous hts
    obtain ⟨e', items', hrun, he, hitems⟩ := h.exists_synonymous hinner
    exact ⟨_, .group (hfirst.opens.trans hopens) hrun (hlast.closes.trans hcloses),
      .group (he.graftAll hitems)⟩

theorem Operand.exists_synonymous {ts ts' : List Token} {e : Expr} (h : Operand ts e)
    (hts : List.Forall₂ Token.Synonymous ts ts') :
    ∃ e', Operand ts' e' ∧ e.Synonymous e' := by
  match h with
  | .plain h =>
    obtain ⟨e', hprimary, he⟩ := h.exists_synonymous hts
    exact ⟨e', .plain hprimary, he⟩
  | .signed hkind hsign h =>
    obtain ⟨t', _, ht, hrest, rfl⟩ := List.forall₂_cons_left_iff.1 hts
    obtain ⟨hkind', htext⟩ := ht.operator hkind
    obtain ⟨e', hprimary, he⟩ := h.exists_synonymous hrest
    exact ⟨_, .signed hkind' (htext ▸ hsign) hprimary, he.unary⟩

/-- Derivations are carried over to synonymous tokens. -/
theorem Run.exists_synonymous {ts ts' : List Token} {e : Expr} {items : List Item}
    (h : Run ts e items) (hts : List.Forall₂ Token.Synonymous ts ts') :
    ∃ e' items', Run ts' e' items' ∧ e.Synonymous e' ∧
      List.Forall₂ Item.Synonymous items items' := by
  match h with
  | .mk hoperand hbehind =>
    obtain ⟨_, _, rfl, hfirst, hrest⟩ := exists_of_forall₂_append hts
    obtain ⟨e', hoperand', he⟩ := hoperand.exists_synonymous hfirst
    obtain ⟨items', hbehind', hitems⟩ := hbehind.exists_synonymous hrest
    exact ⟨e', items', .mk hoperand' hbehind', he, hitems⟩

theorem Behind.exists_synonymous {ts ts' : List Token} {items : List Item} (h : Behind ts items)
    (hts : List.Forall₂ Token.Synonymous ts ts') :
    ∃ items', Behind ts' items' ∧ List.Forall₂ Item.Synonymous items items' := by
  match h with
  | .nil =>
    cases hts
    exact ⟨[], .nil, .nil⟩
  | .percent hkind htext h =>
    obtain ⟨t', _, ht, hrest, rfl⟩ := List.forall₂_cons_left_iff.1 hts
    obtain ⟨hkind', htext'⟩ := ht.operator hkind
    obtain ⟨items', hbehind, hitems⟩ := h.exists_synonymous hrest
    exact ⟨_, .percent hkind' (htext'.trans htext) hbehind, .cons .percent hitems⟩
  | .binary hkind hop htext h =>
    obtain ⟨t', _, ht, hrest, rfl⟩ := List.forall₂_cons_left_iff.1 hts
    obtain ⟨hkind', htext'⟩ := ht.operator hkind
    obtain ⟨e', items', hrun, he, hitems⟩ := h.exists_synonymous hrest
    exact ⟨_, .binary hkind' (htext' ▸ hop) (htext' ▸ htext) hrun, .cons (.binary _ he) hitems⟩

theorem Arguments.exists_synonymous {ts ts' : List Token} {es : List Expr} (h : Arguments ts es)
    (hts : List.Forall₂ Token.Synonymous ts ts') :
    ∃ es', Arguments ts' es' ∧ Expr.SynonymousAll es es' := by
  match h with
  | .none =>
    cases hts
    exact ⟨[], .none, .nil⟩
  | .some h =>
    obtain ⟨es', hseveral, hes⟩ := h.exists_synonymous hts
    exact ⟨es', .some hseveral, hes⟩

theorem Several.exists_synonymous {ts ts' : List Token} {es : List Expr} (h : Several ts es)
    (hts : List.Forall₂ Token.Synonymous ts ts') :
    ∃ es', Several ts' es' ∧ Expr.SynonymousAll es es' := by
  match h with
  | .last h =>
    obtain ⟨e', items', hrun, he, hitems⟩ := h.exists_synonymous hts
    exact ⟨_, .last hrun, .cons (he.graftAll hitems) .nil⟩
  | .cons h hseparates hrest =>
    obtain ⟨_, _, rfl, hfirst, hbehind⟩ := exists_of_forall₂_append hts
    obtain ⟨t', _, ht, hothers, rfl⟩ := List.forall₂_cons_left_iff.1 hbehind
    obtain ⟨e', items', hrun, he, hitems⟩ := h.exists_synonymous hfirst
    obtain ⟨es', hseveral, hes⟩ := hrest.exists_synonymous hothers
    exact ⟨_, .cons hrun (ht.separates.trans hseparates) hseveral,
      .cons (he.graftAll hitems) hes⟩

end

end Grammar

/-! ## Reading -/

/-- Tokens are read like synonymous tokens. -/
theorem Expr.exists_ofTokens_synonymous {tokens tokens' : List Token} {limit : Nat} {e : Expr}
    (hread : ofTokens tokens limit = .ok e) (h : List.Forall₂ Token.Synonymous tokens tokens') :
    ∃ e', ofTokens tokens' limit = .ok e' ∧ e.Synonymous e' := by
  obtain ⟨first, items, hrun, rfl⟩ := derives_of_ofTokens hread
  obtain ⟨first', items', hrun', hfirst, hitems⟩ := hrun.exists_synonymous h
  have hnesting : Group.nesting tokens' ≤ limit := by
    rw [Group.nesting, Group.nestingFrom_of_synonymous h]
    exact nesting_le_of_ofTokens hread
  exact ⟨_, (ofTokens_eq_ok_iff hnesting).2 ⟨first', items', hrun', rfl⟩, hfirst.graftAll hitems⟩

end Spreadsheet
