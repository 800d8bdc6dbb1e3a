import Spreadsheet.Proofs.Formula.Climbing

/-!
# Both ways of reading agree

Grafting the operands of a run from right to left gives the tree that climbing gives from left to
right, inside groups and calls as well. The one exception is a sign before an operand with a colon
directly behind it: grafting gives the sign's operand to the nearest range only.

## Main results

* `onward_of_climbs`: reading on behind an operand climbs over the items that stand there.
* `readable_of_run`: in a run without signed ranges, climbing finds the operands of the grammar.
* `parse_of_ofTokens`: a tree that is read from tokens is the one that climbing gives.
-/

namespace Spreadsheet

/-! ## Signed ranges -/

/-- Whether an operand has to stand behind a token. -/
def Token.awaitsOperand (t : Token) : Bool :=
  t.opens || t.separates || (t.kind == .operator && t.text != "%")

/-- Whether an operand has to stand behind some tokens; `start` says so of where they begin. -/
def awaitsOperand (start : Bool) : List Token → Bool
  | [] => start
  | t :: rest => awaitsOperand t.awaitsOperand rest

/-- Somewhere among the tokens stands an operand with a sign, and a colon directly behind it;
`start` says whether an operand has to stand where the tokens begin. -/
inductive SignedRange : Bool → List Token → Prop
  | here {t colon : Token} {sign : Operator} {operand behind : List Token} {e : Expr}
    (hkind : t.kind = .operator) (hsign : Operator.signOfSymbol? t.text = some sign)
    (hoperand : Grammar.Primary operand e) (hcolon : Climbing.operator? colon = some .range) :
    SignedRange true (t :: (operand ++ colon :: behind))
  | later {start : Bool} {t : Token} {ts : List Token} (h : SignedRange t.awaitsOperand ts) :
    SignedRange start (t :: ts)

section

variable {start : Bool} {t : Token} {ts : List Token}

theorem SignedRange.append (h : SignedRange start ts) (after : List Token) :
    SignedRange start (ts ++ after) := by
  induction h with
  | here hkind hsign hoperand hcolon =>
    rw [List.cons_append, List.append_assoc, List.cons_append]
    exact .here hkind hsign hoperand hcolon
  | later _ ih => exact .later ih

theorem awaitsOperand_append (before : List Token) :
    awaitsOperand start (before ++ ts) = awaitsOperand (awaitsOperand start before) ts := by
  induction before generalizing start with
  | nil => rfl
  | cons t rest ih => exact ih

theorem SignedRange.behind {before : List Token} (h : SignedRange (awaitsOperand start before) ts) :
    SignedRange start (before ++ ts) := by
  induction before generalizing start with
  | nil => exact h
  | cons t rest ih => exact .later (ih h)

theorem Token.awaitsOperand_of_opens (h : t.opens = true) : t.awaitsOperand = true := by
  rw [awaitsOperand, h]
  rfl

theorem Token.awaitsOperand_of_separates (h : t.separates = true) : t.awaitsOperand = true := by
  rw [awaitsOperand, h, Bool.or_true]
  rfl

theorem Token.awaitsOperand_of_operator (hkind : t.kind = .operator) (htext : t.text ≠ "%") :
    t.awaitsOperand = true := by
  simp [awaitsOperand, hkind, htext]

theorem Token.awaitsOperand_of_sign {sign : Operator} (hkind : t.kind = .operator)
    (hsign : Operator.signOfSymbol? t.text = some sign) : t.awaitsOperand = true := by
  refine awaitsOperand_of_operator hkind ?_
  intro heq
  rw [heq] at hsign
  cases hsign

theorem Token.not_awaitsOperand_of_closes (h : t.closes = true) : t.awaitsOperand = false := by
  rw [closes, isSymbol, Bool.and_eq_true] at h
  rw [awaitsOperand, opens, separates, isSymbol, isSymbol, eq_of_beq h.1, eq_of_beq h.2]
  decide

theorem Token.not_awaitsOperand_of_percent (hkind : t.kind = .operator) (htext : t.text = "%") :
    t.awaitsOperand = false := by
  simp [awaitsOperand, opens, separates, isSymbol, hkind, htext]

theorem Token.not_awaitsOperand_of_kind (hsymbol : t.kind ≠ .symbol)
    (hoperator : t.kind ≠ .operator) : t.awaitsOperand = false := by
  simp [awaitsOperand, opens, separates, isSymbol, hsymbol, hoperator]

/-- A signed range begins at the first token or behind it. -/
theorem SignedRange.of_cons (h : SignedRange start (t :: ts)) :
    (t.kind = .operator ∧ start = true ∧ ∃ operand colon behind e,
      operand ++ colon :: behind = ts ∧ Grammar.Primary operand e ∧
        Climbing.operator? colon = some .range) ∨ SignedRange t.awaitsOperand ts := by
  generalize htokens : t :: ts = tokens at h
  cases h with
  | here hkind hsign hoperand hcolon =>
    cases htokens
    exact .inl ⟨hkind, rfl, _, _, _, _, rfl, hoperand, hcolon⟩
  | later h =>
    cases htokens
    exact .inr h

/-- Where no operand has to stand, no signed range begins. -/
theorem SignedRange.of_start_false (h : SignedRange start (t :: ts)) (hstart : start = false) :
    SignedRange t.awaitsOperand ts := by
  rcases h.of_cons with ⟨_, htrue, _⟩ | hbehind
  · rw [hstart] at htrue
    cases htrue
  · exact hbehind

/-- No signed range begins with a token that is no operator. -/
theorem SignedRange.of_kind (h : SignedRange start (t :: ts)) (hkind : t.kind ≠ .operator) :
    SignedRange t.awaitsOperand ts := by
  rcases h.of_cons with ⟨hoperator, _⟩ | hbehind
  · exact absurd hoperator hkind
  · exact hbehind

/-- An operand that begins with a constant or a cell name ends there. -/
theorem Grammar.Primary.rest_eq {operand rest : List Token} {e : Expr}
    (h : Grammar.Primary operand e) (htokens : operand ++ rest = t :: ts)
    (hkind : t.kind = .constant ∨ t.kind = .cell) : rest = ts := by
  cases h with
  | constant _ _ =>
    cases htokens
    rfl
  | cell _ =>
    cases htokens
    rfl
  | call hfunction _ _ _ _ =>
    cases htokens
    rw [hfunction] at hkind
    rcases hkind with h | h <;> cases h
  | group hopens _ _ =>
    cases htokens
    rw [Token.kind_of_opens hopens] at hkind
    rcases hkind with h | h <;> cases h

end

namespace Grammar

/-- Behind an operand no operand is awaited. -/
theorem Primary.not_awaitsOperand {start : Bool} {ts : List Token} {e : Expr}
    (h : Primary ts e) : awaitsOperand start ts = false := by
  cases h with
  | constant hkind _ =>
    exact Token.not_awaitsOperand_of_kind (by rw [hkind]; decide) (by rw [hkind]; decide)
  | cell hkind =>
    exact Token.not_awaitsOperand_of_kind (by rw [hkind]; decide) (by rw [hkind]; decide)
  | call _ _ _ _ hcloses =>
    rw [awaitsOperand, awaitsOperand, awaitsOperand_append]
    exact Token.not_awaitsOperand_of_closes hcloses
  | group _ _ hcloses =>
    rw [awaitsOperand, awaitsOperand_append]
    exact Token.not_awaitsOperand_of_closes hcloses

theorem Operand.not_awaitsOperand {start : Bool} {ts : List Token} {e : Expr}
    (h : Operand ts e) : awaitsOperand start ts = false := by
  cases h with
  | plain h => exact h.not_awaitsOperand
  | signed _ _ h => exact h.not_awaitsOperand

theorem Primary.not_isSign {ts : List Token} {e : Expr} (h : Primary ts e) : ¬ e.IsSign := by
  rintro ⟨sign, operand, heq, _⟩
  cases h <;> cases heq

theorem isSign_of_signOfSymbol? {symbol : String} {sign : Operator}
    (h : Operator.signOfSymbol? symbol = some sign) : sign.isSign = true := by
  unfold Operator.signOfSymbol? at h
  split at h <;> cases h <;> rfl

/-- An operand is not itself made of operators that an operator could go past. -/
theorem Operand.tight {ts : List Token} {e : Expr} (h : Operand ts e) (level : Nat) :
    e.Tight level := by
  cases h with
  | plain h => cases h <;> trivial
  | signed _ hsign _ => exact .inl (isSign_of_signOfSymbol? hsign)

/-- The operator of an item stands between operands. -/
theorem fixity_of_ofSymbol? {symbol : String} {op : Operator}
    (h : Operator.ofSymbol? symbol = some op) (htext : symbol ≠ "%") : op.fixity = .between := by
  unfold Operator.ofSymbol? at h
  split at h <;> cases h <;> first | rfl | exact absurd rfl htext

end Grammar

/-! ## Climbing over items -/

namespace Climbing

open Grammar (Primary Operand Run Behind Arguments Several)
open Item (Proper StopsAt)

variable {t : Token} {ts rest tail : List Token} {e left : Expr} {items : List Item}

/-- Tokens behind which an expression cannot go on. -/
def Ends : List Token → Prop
  | [] => True
  | t :: _ => operator? t = none

theorem ends_of_symbol (h : t.kind = .symbol) : Ends (t :: rest) := operator?_of_symbol h

/-- The items that stand in front of some tokens, where climbing finds the operand of each. -/
inductive Chain (tail : List Token) : List Token → List Item → Prop
  | nil : Chain tail tail []
  | percent {t : Token} {rest : List Token} {items : List Item}
    (hoperator : operator? t = some .percent) (h : Chain tail rest items) :
    Chain tail (t :: rest) (.percent :: items)
  | binary {t : Token} {op : Operator} {e : Expr} {ts rest : List Token} {items : List Item}
    (hoperator : operator? t = some op) (hpercent : op ≠ .percent)
    (hoperand : Leaves (operand ts) e rest) (h : Chain tail rest items) :
    Chain tail (t :: ts) (.binary op e :: items)

/-- Before items that bind too loosely, reading on stops. -/
theorem leaves_onward_of_stopsAt {lowest : Nat} (hends : Ends tail) (h : Chain tail ts items)
    (hstops : StopsAt lowest items) : Leaves (onward lowest left ts) left ts := by
  cases h with
  | nil =>
    cases ts with
    | nil => exact leaves_onward_nil
    | cons t rest => exact leaves_onward_other hends
  | percent hoperator _ => exact leaves_onward_looser hoperator hstops
  | binary hoperator _ _ _ => exact leaves_onward_looser hoperator hstops

/-- Reading on behind an operand climbs over the items that stand there. By induction on the climb,
which takes the right operand of an operator first. -/
theorem onward_of_climbs {lowest : Nat} {others : List Item} (hends : Ends tail)
    (hclimbs : Climbs lowest left items e others) (h : Chain tail ts items) :
    ∃ rest, Chain tail rest others ∧ Leaves (onward lowest left ts) e rest := by
  induction hclimbs generalizing ts with
  | stop hstops => exact ⟨ts, h, leaves_onward_of_stopsAt hends h hstops⟩
  | percent hle _ ih =>
    cases h with
    | percent hoperator h =>
      obtain ⟨rest, hchain, honward⟩ := ih h
      exact ⟨rest, hchain, leaves_onward_percent hoperator hle honward⟩
  | binary hle _ _ ihright ih =>
    cases h with
    | binary hoperator hpercent hoperand h =>
      obtain ⟨behind, hbehind, hright⟩ := ihright h
      obtain ⟨rest, hchain, honward⟩ := ih hbehind
      exact ⟨rest, hchain, leaves_onward_binary hoperator hpercent hle
        (leaves_expression hoperand hright) honward⟩

/-! ## Runs -/

/-- Climbing finds the operand of a run and the items behind it; and they are such that climbing
over them is grafting. -/
structure Readable (tail ts : List Token) (e : Expr) (items : List Item) (rest : List Token) :
    Prop where
  operand : Leaves (operand ts) e rest
  chain : Chain tail rest items
  proper : Proper e items
  tight : ∀ level, e.Tight level

/-- A readable run is read as the tree that grafting gives. -/
theorem Readable.expression (h : Readable tail ts e items rest) (hends : Ends tail) :
    Leaves (expression 0 ts) (e.graftAll items) tail := by
  obtain ⟨e', others, hclimbs, _⟩ := exists_climbs 0 e items
  have hnil : others = [] := Item.eq_nil_of_stopsAt_zero hclimbs.stopsAt
  subst hnil
  obtain ⟨last, hchain, honward⟩ := onward_of_climbs hends hclimbs h.chain
  cases hchain
  rw [graftAll_of_climbs hclimbs h.proper]
  exact leaves_expression h.operand honward

/-- A colon stands in front of some tokens. -/
def StartsWithRange (ts : List Token) : Prop :=
  ∃ t rest, ts = t :: rest ∧ operator? t = some .range

/-- Behind an operand that is a sign and its operand stands no colon. -/
theorem not_startsWithRange {behind : List Token} (hoperand : Operand ts e) (hends : Ends tail)
    (hsigned : ¬ SignedRange true (ts ++ behind)) (hsign : e.IsSign) :
    ¬ StartsWithRange (behind ++ tail) := by
  rintro ⟨colon, others, heq, hcolon⟩
  cases hoperand with
  | plain h => exact h.not_isSign hsign
  | signed hkind hsignOf h =>
    cases behind with
    | nil =>
      rw [List.nil_append] at heq
      rw [heq, Ends, hcolon] at hends
      cases hends
    | cons b behind =>
      cases heq
      exact hsigned (.here hkind hsignOf h hcolon)

/-- The operand of a sign ends where no range operator stands behind it. -/
theorem leaves_onward_sign {sign : Operator} (hsign : sign.isSign = true)
    (h : ¬ StartsWithRange ts) : Leaves (onward (sign.strength + 1) left ts) left ts := by
  cases ts with
  | nil => exact leaves_onward_nil
  | cons t rest =>
    cases hoperator : operator? t with
    | none => exact leaves_onward_other hoperator
    | some op =>
      refine leaves_onward_looser hoperator ?_
      have hne : op ≠ .range := fun heq => h ⟨t, rest, rfl, heq ▸ hoperator⟩
      have hstrength : sign.strength = 7 := Operator.strength_of_isSign hsign
      have hle : ¬ 7 < op.strength := fun hlt => hne (Operator.eq_range_of_lt hlt)
      omega

mutual

/-- Climbing reads an operand of the grammar. -/
theorem leaves_of_primary {ts : List Token} {e : Expr} (h : Primary ts e)
    (hsigned : ¬ SignedRange true ts) (tail : List Token) :
    Leaves (operand (ts ++ tail)) e tail := by
  match h with
  | .constant hkind hvalue => exact leaves_operand_constant hkind hvalue
  | .cell hkind => exact leaves_operand_cell hkind
  | @Primary.call t first last f inner es hkind hname hopens harguments hcloses =>
    have hinner : ¬ SignedRange true inner := fun hrange =>
      hsigned (.later (.later (Token.awaitsOperand_of_opens hopens ▸ hrange.append [last])))
    rw [List.cons_append, List.cons_append, List.append_assoc, List.singleton_append]
    exact leaves_operand_call hkind hname hopens
      (leaves_of_arguments harguments hinner hcloses tail)
  | @Primary.group first last inner e items hopens hrun hcloses =>
    have hinner : ¬ SignedRange true inner := fun hrange =>
      hsigned (.later (Token.awaitsOperand_of_opens hopens ▸ hrange.append [last]))
    have hends : Ends (last :: tail) := ends_of_symbol (Token.kind_of_closes hcloses)
    rw [List.cons_append, List.append_assoc, List.singleton_append]
    obtain ⟨rest, hreadable⟩ := readable_of_run hrun hinner hends
    exact leaves_operand_group hopens hcloses (hreadable.expression hends)

/-- Climbing reads an operand with a sign, unless a colon stands behind it. -/
theorem leaves_of_operand {ts tail : List Token} {e : Expr} (h : Operand ts e)
    (hsigned : ¬ SignedRange true ts) (hrange : e.IsSign → ¬ StartsWithRange tail) :
    Leaves (operand (ts ++ tail)) e tail := by
  match h with
  | .plain h => exact leaves_of_primary h hsigned tail
  | @Operand.signed t sign inner e hkind hsign h =>
    have hisSign := Grammar.isSign_of_signOfSymbol? hsign
    have htext : t.text ≠ "%" := by
      intro heq
      rw [heq] at hsign
      cases hsign
    have hinner : ¬ SignedRange true inner := fun hrange' =>
      hsigned (.later (Token.awaitsOperand_of_operator hkind htext ▸ hrange'))
    have hnone := hrange ⟨sign, e, rfl, hisSign⟩
    exact leaves_operand_sign hkind hsign
      (leaves_expression (leaves_of_primary h hinner tail) (leaves_onward_sign hisSign hnone))

/-- In a run without signed ranges, climbing finds the operands of the grammar. -/
theorem readable_of_run {ts tail : List Token} {e : Expr} {items : List Item}
    (h : Run ts e items) (hsigned : ¬ SignedRange true ts) (hends : Ends tail) :
    ∃ rest, Readable tail (ts ++ tail) e items rest := by
  match h with
  | @Run.mk first behind e items hoperand hbehind =>
    have hrange := not_startsWithRange hoperand hends hsigned
    have hfirst : ¬ SignedRange true first := fun h => hsigned (h.append behind)
    have hrest : ¬ SignedRange false behind := fun h =>
      hsigned (.behind (hoperand.not_awaitsOperand ▸ h))
    obtain ⟨hchain, hproper⟩ := chain_of_behind hbehind hrest hends
    rw [List.append_assoc]
    exact ⟨behind ++ tail, leaves_of_operand hoperand hfirst hrange, hchain, hproper e hrange,
      hoperand.tight⟩

/-- Behind an operand, climbing finds the items of the grammar. -/
theorem chain_of_behind {ts tail : List Token} {items : List Item} (h : Behind ts items)
    (hsigned : ¬ SignedRange false ts) (hends : Ends tail) : Chain tail (ts ++ tail) items ∧
      ∀ left : Expr, (left.IsSign → ¬ StartsWithRange (ts ++ tail)) → Proper left items := by
  match h with
  | .nil => exact ⟨.nil, fun _ _ => trivial⟩
  | @Behind.percent t rest items hkind htext h =>
    have hoperator : operator? t = some .percent := by
      rw [operator?, if_pos hkind, htext]
      rfl
    have hawaits : t.awaitsOperand = false := Token.not_awaitsOperand_of_percent hkind htext
    have hrest : ¬ SignedRange false rest := fun h => hsigned (.later (hawaits ▸ h))
    obtain ⟨hchain, hproper⟩ := chain_of_behind h hrest hends
    refine ⟨.percent hoperator hchain, fun left _ => ?_⟩
    exact hproper _ fun hsign => absurd hsign (Expr.not_isSign_percent left)
  | @Behind.binary t op rest e items hkind hop htext h =>
    have hfixity := Grammar.fixity_of_ofSymbol? hop htext
    have hoperator : operator? t = some op := (if_pos hkind).trans hop
    have hrest : ¬ SignedRange true rest := fun h =>
      hsigned (.later (Token.awaitsOperand_of_operator hkind htext ▸ h))
    obtain ⟨last, hreadable⟩ := readable_of_run h hrest hends
    refine ⟨.binary hoperator (fun heq => ?_) hreadable.operand hreadable.chain,
      fun left hleft => ⟨hfixity, fun heq hsign => ?_, hreadable.tight, hreadable.proper⟩⟩
    · rw [heq] at hfixity
      cases hfixity
    · exact hleft hsign ⟨t, rest ++ tail, rfl, heq ▸ hoperator⟩

/-- Climbing reads the arguments of a call. -/
theorem leaves_of_arguments {inner : List Token} {es : List Expr} {last : Token}
    (h : Arguments inner es) (hsigned : ¬ SignedRange true inner) (hcloses : last.closes = true)
    (tail : List Token) : Leaves (arguments (inner ++ last :: tail)) es tail := by
  match h with
  | .none => exact leaves_arguments_none hcloses
  | .some h => exact leaves_arguments_some (leaves_of_several h hsigned hcloses tail)

theorem leaves_of_several {inner : List Token} {es : List Expr} {last : Token}
    (h : Several inner es) (hsigned : ¬ SignedRange true inner) (hcloses : last.closes = true)
    (tail : List Token) : Leaves (several (inner ++ last :: tail)) es tail := by
  match h with
  | .last h =>
    have hends : Ends (last :: tail) := ends_of_symbol (Token.kind_of_closes hcloses)
    obtain ⟨rest, hreadable⟩ := readable_of_run h hsigned hends
    exact leaves_several_last hcloses (hreadable.expression hends)
  | @Several.cons t first others e items es h hseparates hothers =>
    have hends : Ends (t :: (others ++ last :: tail)) :=
      ends_of_symbol (Token.kind_of_separates hseparates)
    have hfirst : ¬ SignedRange true first := fun h => hsigned (h.append _)
    have hrest : ¬ SignedRange true others := fun h =>
      hsigned (.behind (.later (Token.awaitsOperand_of_separates hseparates ▸ h)))
    obtain ⟨rest, hreadable⟩ := readable_of_run h hfirst hends
    rw [List.append_assoc, List.cons_append]
    exact leaves_several_cons hseparates (hreadable.expression hends)
      (leaves_of_several hothers hrest hcloses tail)

end

end Climbing

/-- A tree that is read from tokens without signed ranges is the one that climbing gives. -/
theorem parse_of_ofTokens {tokens : List Token} {limit : Nat} {e : Expr}
    (h : Expr.ofTokens tokens limit = .ok e) (hsigned : ¬ SignedRange true tokens) :
    Climbing.parse tokens = some e := by
  obtain ⟨first, items, hrun, htree⟩ := Expr.derives_of_ofTokens h
  have hends : Climbing.Ends [] := trivial
  obtain ⟨rest, hreadable⟩ := Climbing.readable_of_run hrun hsigned hends
  rw [List.append_nil] at hreadable
  obtain ⟨_, hexpression⟩ := hreadable.expression hends
  rw [Climbing.parse, hexpression, htree]

/-- The tokens of `-1+A1:A2%`. -/
def signedSumTokens : List Token :=
  [⟨.operator, "-", none, 0⟩, ⟨.constant, "1", some (.number 1.0), 1⟩, ⟨.operator, "+", none, 2⟩,
    ⟨.cell, "A1", none, 3⟩, ⟨.operator, ":", none, 5⟩, ⟨.cell, "A2", none, 6⟩,
    ⟨.operator, "%", none, 8⟩]

/-- The only token where a sign could stand is the first one, and no colon stands behind its
operand. -/
theorem not_signedRange_signedSumTokens : ¬ SignedRange true signedSumTokens := by
  intro h
  rcases h.of_cons with ⟨_, _, operand, colon, behind, e, heq, hoperand, hcolon⟩ | h
  · have hrest := hoperand.rest_eq heq (.inl rfl)
    cases hrest
    exact absurd hcolon (by decide)
  have hsum := h.of_kind (by decide)
  have hfirst := hsum.of_start_false (by decide)
  have hcolon := hfirst.of_kind (by decide)
  have hlast := hcolon.of_start_false (by decide)
  have hpercent := hlast.of_kind (by decide)
  have hend := hpercent.of_start_false (by decide)
  cases hend

/-- A sign, a range and a percent sign are read as climbing reads them. -/
theorem parse_signedSumTokens :
    Climbing.parse signedSumTokens =
      some (.operator .add [.operator .negate [.constant (.number 1.0)],
        .operator .percent [.operator .range [.reference "A1", .reference "A2"]]]) :=
  parse_of_ofTokens (by with_unfolding_all rfl : Expr.ofTokens signedSumTokens 0 = .ok _)
    not_signedRange_signedSumTokens

end Spreadsheet
