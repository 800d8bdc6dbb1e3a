import Spreadsheet.Proofs.Formula.Words

/-!
# The operations of a tree

Every operation that a tree applies stands for a token that it was read from: a call for the name of
a function, a sign for a sign before an operand, and any other operator for its symbol behind an
operand. Only a minus sign behind an operand stands for two operations, a sum and a sign, and for no
difference.

## Main results

* `Expr.applies_graft`: grafting adds the operations of the operator that it grafts with.
* `Expr.applies_iff_of_ofTokens`: a tree applies exactly the operations that its tokens stand for.
* `Token.StandsFor.writes`: of all these operations, only the sum may be written otherwise.
-/

namespace Spreadsheet

/-- An expression applies an operation at some place. -/
inductive Expr.Applies (operation : Operation) : Expr → Prop
  | here (args : List Expr) : Applies operation (.apply operation args)
  | operand {other : Operation} {args : List Expr} {e : Expr} (he : e ∈ args)
    (h : Applies operation e) : Applies operation (.apply other args)
  | group {inner : Expr} (h : Applies operation inner) : Applies operation (.group inner)

/-- What an operator token behind an operand applies. -/
def Operator.applied (op : Operator) : List Operator :=
  if op = .subtract then [.add, .negate] else [op]

/-- A token stands for an operation; `start` says whether an operand is awaited where it stands. -/
inductive Token.StandsFor (t : Token) : Bool → Operation → Prop
  | function {start : Bool} {f : Builtin} (hkind : t.kind = .function)
    (hname : Builtin.ofName? t.text = some f) : StandsFor t start (.builtin f)
  | sign {sign : Operator} (hkind : t.kind = .operator)
    (hsign : Operator.signOfSymbol? t.text = some sign) : StandsFor t true (.operator sign)
  | operator {op applied : Operator} (hkind : t.kind = .operator)
    (hop : Operator.ofSymbol? t.text = some op) (happlied : applied ∈ op.applied) :
    StandsFor t false (.operator applied)

/-- A token is written as the operation of a name is: a function by its name, in any case, and an
operator by its symbol, which for a sign is `+` or `-`. -/
def Token.Writes (t : Token) (name : String) : Prop :=
  t.kind = .function ∧ Text.upperAscii t.text = name ∨
    t.kind = .operator ∧ ∃ op : Operator, op.sourceText = t.text ∧ op.symbol = name

/-- A token is a minus sign behind an operand; `start` says whether an operand is awaited
instead. -/
def Token.Subtracts (t : Token) (start : Bool) : Prop :=
  start = false ∧ t.kind = .operator ∧ t.text = "-"

/-- One of the tokens stands for an operation. -/
def StandsIn (operation : Operation) (start : Bool) : List Token → Prop
  | [] => False
  | t :: rest => t.StandsFor start operation ∨ StandsIn operation t.awaitsOperand rest

variable {operation : Operation} {start : Bool} {t : Token} {op : Operator} {left right e : Expr}

/-! ## Operations of trees -/

namespace Expr

@[simp] theorem not_applies_constant (v : Value) : ¬ Applies operation (.constant v) := by
  intro h
  cases h

@[simp] theorem not_applies_reference (name : String) : ¬ Applies operation (.reference name) := by
  intro h
  cases h

@[simp] theorem applies_group : Applies operation (.group e) ↔ e.Applies operation := by
  constructor
  · intro h
    cases h with
    | group h => exact h
  · exact .group

@[simp] theorem applies_apply {other : Operation} {args : List Expr} :
    Applies operation (.apply other args) ↔
      other = operation ∨ ∃ e ∈ args, e.Applies operation := by
  constructor
  · intro h
    cases h with
    | here => exact .inl rfl
    | operand he h => exact .inr ⟨_, he, h⟩
  · rintro (rfl | ⟨e, he, h⟩)
    · exact .here args
    · exact .operand he h

theorem applies_place :
    (place op right left).Applies operation ↔
      left.Applies operation ∨ .operator op = operation ∨ right.Applies operation := by
  fun_induction place op right left with
  | case1 sign operand _ ih => simp [ih, or_assoc]
  | case2 sign operand _ => simp [or_assoc, or_left_comm]
  | case3 left _ => simp [or_left_comm]

theorem applies_join :
    (join left op right).Applies operation ↔
      left.Applies operation ∨ (∃ applied ∈ op.applied, .operator applied = operation) ∨
        right.Applies operation := by
  rw [join, Operator.applied]
  split <;> simp [applies_place, or_assoc]

/-- Grafting adds the operations of the operator that it grafts with. -/
theorem applies_graft :
    (graft left op right).Applies operation ↔
      left.Applies operation ∨ (∃ applied ∈ op.applied, .operator applied = operation) ∨
        right.Applies operation := by
  fun_induction graft left op right with
  | case1 inner first others _ ih =>
    simp only [applies_apply, List.mem_cons, exists_eq_or_imp, ih, or_assoc, or_left_comm]
  | case2 inner first others _ => exact applies_join
  | case3 right _ => exact applies_join

end Expr

/-! ## Operations of tokens -/

theorem standsIn_append (before after : List Token) :
    StandsIn operation start (before ++ after) ↔
      StandsIn operation start before ∨
        StandsIn operation (awaitsOperand start before) after := by
  induction before generalizing start with
  | nil => simp [StandsIn, awaitsOperand]
  | cons t rest ih => rw [List.cons_append, StandsIn, StandsIn, awaitsOperand, ih, or_assoc]

theorem standsIn_iff {tokens : List Token} :
    StandsIn operation start tokens ↔
      ∃ before t after, tokens = before ++ t :: after ∧
        t.StandsFor (awaitsOperand start before) operation := by
  constructor
  · intro h
    induction tokens generalizing start with
    | nil => exact h.elim
    | cons t rest ih =>
      rcases h with hfirst | hrest
      · exact ⟨[], t, rest, rfl, hfirst⟩
      · obtain ⟨before, t', after, rfl, h⟩ := ih hrest
        exact ⟨t :: before, t', after, rfl, h⟩
  · rintro ⟨before, t, after, rfl, h⟩
    rw [standsIn_append]
    exact .inr (.inl h)

namespace Token

theorem not_standsFor_of_kind (hfunction : t.kind ≠ .function) (hoperator : t.kind ≠ .operator) :
    ¬ t.StandsFor start operation := by
  intro h
  cases h with
  | function hkind _ => exact hfunction hkind
  | sign hkind _ => exact hoperator hkind
  | operator hkind _ _ => exact hoperator hkind

theorem not_standsFor_of_symbol (hkind : t.kind = .symbol) : ¬ t.StandsFor start operation :=
  not_standsFor_of_kind (by simp [hkind]) (by simp [hkind])

theorem standsFor_of_builtin {f : Builtin} (hkind : t.kind = .function)
    (hname : Builtin.ofName? t.text = some f) :
    t.StandsFor start operation ↔ .builtin f = operation := by
  constructor
  · intro h
    cases h with
    | function _ hname' => rw [Option.some.inj (hname.symm.trans hname')]
    | sign hkind' _ => exact absurd (hkind.symm.trans hkind') (by decide)
    | operator hkind' _ _ => exact absurd (hkind.symm.trans hkind') (by decide)
  · rintro rfl
    exact .function hkind hname

theorem standsFor_of_sign {sign : Operator} (hkind : t.kind = .operator)
    (hsign : Operator.signOfSymbol? t.text = some sign) :
    t.StandsFor true operation ↔ .operator sign = operation := by
  constructor
  · intro h
    cases h with
    | function hkind' _ => exact absurd (hkind.symm.trans hkind') (by decide)
    | sign _ hsign' => rw [Option.some.inj (hsign.symm.trans hsign')]
  · rintro rfl
    exact .sign hkind hsign

theorem standsFor_of_operator (hkind : t.kind = .operator)
    (hop : Operator.ofSymbol? t.text = some op) :
    t.StandsFor false operation ↔ ∃ applied ∈ op.applied, .operator applied = operation := by
  constructor
  · intro h
    cases h with
    | function hkind' _ => exact absurd (hkind.symm.trans hkind') (by decide)
    | operator _ hop' happlied =>
      rw [Option.some.inj (hop.symm.trans hop')]
      exact ⟨_, happlied, rfl⟩
  · rintro ⟨applied, happlied, rfl⟩
    exact .operator hkind hop happlied

end Token

/-! ## Names of operations -/

theorem Operator.sourceText_of_ofSymbol? {symbol : String} (h : ofSymbol? symbol = some op) :
    op.sourceText = symbol := by
  unfold ofSymbol? at h
  split at h <;> cases h <;> rfl

/-- Of the operations that a token stands for, only the sum may be written otherwise. -/
theorem Token.StandsFor.writes (h : t.StandsFor start operation) :
    t.Writes operation.name ∨ operation = .operator .add ∧ t.Subtracts start := by
  cases h with
  | function hkind hname => exact .inl (.inl ⟨hkind, (Builtin.name_of_ofName? hname).symm⟩)
  | @sign sign hkind hsign =>
    exact .inl (.inr ⟨hkind, sign, sourceText_of_signOfSymbol? hsign, rfl⟩)
  | @operator op applied hkind hop happlied =>
    have htext : op.sourceText = t.text := Operator.sourceText_of_ofSymbol? hop
    by_cases hminus : op = .subtract
    · subst hminus
      have hsum : applied = .add ∨ applied = .negate := by
        simpa [Operator.applied] using happlied
      rcases hsum with rfl | rfl
      · exact .inr ⟨rfl, rfl, hkind, htext.symm⟩
      · exact .inl (.inr ⟨hkind, .negate, htext, rfl⟩)
    · have hsame : applied = op := by
        simpa [Operator.applied, hminus] using happlied
      exact .inl (.inr ⟨hkind, applied, hsame ▸ htext, rfl⟩)

/-! ## Operations of derivations -/

namespace Grammar

mutual

theorem Primary.applies_iff {ts : List Token} {e : Expr} (h : Primary ts e) :
    e.Applies operation ↔ StandsIn operation true ts := by
  match h with
  | .constant hkind _ =>
    simp [StandsIn, Token.not_standsFor_of_kind, hkind]
  | .cell hkind =>
    simp [StandsIn, Token.not_standsFor_of_kind, hkind]
  | @Primary.call t first last f inner es hkind hname hopens h hcloses =>
    rw [Expr.applies_apply, StandsIn, StandsIn, standsIn_append, StandsIn, StandsIn,
      Token.standsFor_of_builtin hkind hname, Token.awaitsOperand_of_opens hopens, h.applies_iff]
    simp [Token.not_standsFor_of_symbol, Token.kind_of_opens hopens, Token.kind_of_closes hcloses]
  | .group hopens h hcloses =>
    rw [Expr.applies_group, StandsIn, standsIn_append, StandsIn, StandsIn,
      Token.awaitsOperand_of_opens hopens, h.applies_iff]
    simp [Token.not_standsFor_of_symbol, Token.kind_of_opens hopens, Token.kind_of_closes hcloses]

theorem Operand.applies_iff {ts : List Token} {e : Expr} (h : Operand ts e) :
    e.Applies operation ↔ StandsIn operation true ts := by
  match h with
  | .plain h => exact h.applies_iff
  | @Operand.signed t sign ts e hkind hsign h =>
    rw [StandsIn, Token.standsFor_of_sign hkind hsign, Token.awaitsOperand_of_sign hkind hsign,
      ← h.applies_iff]
    simp

/-- The operations of a run are those that its tokens stand for. -/
theorem Run.applies_iff {ts : List Token} {e : Expr} {items : List Item} (h : Run ts e items) :
    (e.graftAll items).Applies operation ↔ StandsIn operation true ts := by
  match h with
  | .mk hoperand hbehind =>
    rw [hbehind.applies_iff, standsIn_append, hoperand.applies_iff, hoperand.not_awaitsOperand]

/-- What stands behind an operand adds the operations of its tokens. -/
theorem Behind.applies_iff {ts : List Token} {items : List Item} {left : Expr}
    (h : Behind ts items) :
    (left.graftAll items).Applies operation ↔
      left.Applies operation ∨ StandsIn operation false ts := by
  match h with
  | .nil => simp [Expr.graftAll, StandsIn]
  | @Behind.percent t ts items hkind htext h =>
    have hpercent : t.StandsFor false operation ↔ .operator .percent = operation := by
      have hop : Operator.ofSymbol? t.text = some .percent := by rw [htext]; rfl
      rw [Token.standsFor_of_operator hkind hop]
      simp [Operator.applied]
    rw [Expr.graftAll, h.applies_iff, StandsIn, hpercent,
      Token.not_awaitsOperand_of_percent hkind htext]
    simp [or_assoc, or_left_comm]
  | .binary hkind hop htext h =>
    rw [Expr.graftAll, Expr.applies_graft, h.applies_iff, StandsIn,
      Token.standsFor_of_operator hkind hop, Token.awaitsOperand_of_operator hkind htext]

theorem Arguments.applies_iff {ts : List Token} {es : List Expr} (h : Arguments ts es) :
    (∃ e ∈ es, e.Applies operation) ↔ StandsIn operation true ts := by
  match h with
  | .none => simp [StandsIn]
  | .some h => exact h.applies_iff

theorem Several.applies_iff {ts : List Token} {es : List Expr} (h : Several ts es) :
    (∃ e ∈ es, e.Applies operation) ↔ StandsIn operation true ts := by
  match h with
  | .last h => simp [h.applies_iff]
  | .cons h hseparates hrest =>
    simp only [List.mem_cons, exists_eq_or_imp]
    rw [standsIn_append, StandsIn, h.applies_iff, hrest.applies_iff,
      Token.awaitsOperand_of_separates hseparates]
    simp [Token.not_standsFor_of_symbol, Token.kind_of_separates hseparates]

end

end Grammar

/-- A tree that is read from tokens applies exactly the operations that they stand for. -/
theorem Expr.applies_iff_of_ofTokens {tokens : List Token} {limit : Nat}
    (h : ofTokens tokens limit = .ok e) :
    e.Applies operation ↔ StandsIn operation true tokens := by
  obtain ⟨first, items, hrun, rfl⟩ := derives_of_ofTokens h
  exact hrun.applies_iff

end Spreadsheet
