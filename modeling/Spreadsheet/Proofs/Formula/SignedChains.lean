import Spreadsheet.Proofs.Formula.LeftEdge
import Spreadsheet.Proofs.Formula.Precedence
import Spreadsheet.Proofs.Formula.Segments

/-!
# Signs before chains of ranges

A sign before a range applies to the range. A sign before a chain of several ranges applies to the
first one only: `-A1:A2:A3` is read as `(-(A1:A2)):A3`, where a range has a sign for its left
operand. That happens exactly where a chain begins with signs, a colon stands behind each operand
with a sign, and one more colon behind the operand that comes then.

## Main results

* `Grammar.Primary.append_inj`: it is clear where an operand ends.
* `Grammar.Run.chained_iff`: which operands hang from a range when a run is grafted.
* `Expr.signedCorner_iff_of_ofTokens`: when a range has a sign for its left operand.
-/

namespace Spreadsheet

open Climbing (Ends StartsWithRange)
open Grammar (Primary Operand Run Behind Arguments Several)

/-! ## Chains -/

/-- Tokens begin with an operand that a colon stands behind; if it has a sign, then with another
such operand behind the colon. -/
inductive Chained : List Token → Prop
  | plain {colon : Token} {operand behind : List Token} {e : Expr} (h : Primary operand e)
    (hcolon : Climbing.operator? colon = some .range) : Chained (operand ++ colon :: behind)
  | signed {t colon : Token} {sign : Operator} {operand behind : List Token} {e : Expr}
    (hkind : t.kind = .operator) (hsign : Operator.signOfSymbol? t.text = some sign)
    (h : Primary operand e) (hcolon : Climbing.operator? colon = some .range)
    (hbehind : Chained behind) : Chained (t :: (operand ++ colon :: behind))

/-- Whether an operand behind a token begins a chain of ranges: it has to stand there, and it is not
the right operand of a range. -/
def Token.beginsChain (t : Token) : Bool :=
  t.awaitsOperand && Climbing.operator? t != some .range

/-- Somewhere a chain begins with an operand that has a sign, and goes on with one that a further
colon stands behind; `start` says whether a chain may begin where the tokens begin. -/
inductive SignedChain : Bool → List Token → Prop
  | here {t colon : Token} {sign : Operator} {operand behind : List Token} {e : Expr}
    (hkind : t.kind = .operator) (hsign : Operator.signOfSymbol? t.text = some sign)
    (h : Primary operand e) (hcolon : Climbing.operator? colon = some .range)
    (hbehind : Chained behind) : SignedChain true (t :: (operand ++ colon :: behind))
  | later {start : Bool} {t : Token} {ts : List Token} (h : SignedChain t.beginsChain ts) :
    SignedChain start (t :: ts)

/-- A colon, and a chain behind it. -/
def ColonChained (ts : List Token) : Prop :=
  ∃ colon rest, ts = colon :: rest ∧ Climbing.operator? colon = some .range ∧ Chained rest

variable {start : Bool} {t : Token} {ts tail : List Token} {e : Expr} {items : List Item}

namespace Grammar

/-! ## Where operands end -/

/-- An operand is no proper beginning of another one. -/
theorem Primary.eq_nil_of_append {back : List Token} {e' : Expr} (h : Primary ts e)
    (h' : Primary (ts ++ back) e') : back = [] := by
  by_cases hback : back = []
  · exact hback
  · obtain ⟨t, u, rest, rfl, hkind, -, -⟩ :=
      h'.phrase.call_of_append h.phrase.undivided h.phrase.ne_nil hback
    rcases h.phrase.kind_of_singleton with hconstant | hcell
    · simp [hkind] at hconstant
    · simp [hkind] at hcell

/-- It is clear where an operand ends. -/
theorem Primary.append_inj {ts' tail' : List Token} {e' : Expr} (h : Primary ts e)
    (h' : Primary ts' e') (heq : ts ++ tail = ts' ++ tail') : ts = ts' ∧ tail = tail' := by
  rcases List.append_eq_append_iff.1 heq with ⟨back, hts, htail⟩ | ⟨back, hts, htail⟩
  · subst hts
    have hback : back = [] := h.eq_nil_of_append h'
    subst hback
    simp [htail]
  · subst hts
    have hback : back = [] := h'.eq_nil_of_append h
    subst hback
    simp [htail]

theorem Primary.chained_iff (h : Primary ts e) :
    Chained (ts ++ tail) ↔ StartsWithRange tail := by
  constructor
  · intro hchained
    generalize heq : ts ++ tail = all at hchained
    cases hchained with
    | plain h' hcolon =>
      obtain ⟨-, rfl⟩ := h.append_inj h' heq
      exact ⟨_, _, rfl, hcolon⟩
    | signed hkind hsign h' hcolon hbehind =>
      obtain ⟨t, rest, rfl⟩ := List.exists_cons_of_ne_nil h.phrase.ne_nil
      obtain ⟨rfl, -⟩ := List.cons.inj heq
      exact absurd hkind h.phrase.not_operator
  · rintro ⟨colon, rest, rfl, hcolon⟩
    exact .plain h hcolon

theorem Primary.chained_sign_iff {sign : Operator} (h : Primary ts e) (hkind : t.kind = .operator)
    (hsign : Operator.signOfSymbol? t.text = some sign) :
    Chained (t :: (ts ++ tail)) ↔ ColonChained tail := by
  constructor
  · intro hchained
    generalize heq : t :: (ts ++ tail) = all at hchained
    cases hchained with
    | @plain colon operand behind e' h' hcolon =>
      obtain ⟨u, rest, rfl⟩ := List.exists_cons_of_ne_nil h'.phrase.ne_nil
      obtain ⟨rfl, -⟩ := List.cons.inj heq
      exact absurd hkind h'.phrase.not_operator
    | signed _ _ h' hcolon hbehind =>
      obtain ⟨rfl, htail⟩ := List.cons.inj heq
      obtain ⟨-, rfl⟩ := h.append_inj h' htail
      exact ⟨_, _, rfl, hcolon, hbehind⟩
  · rintro ⟨colon, rest, rfl, hcolon, hbehind⟩
    exact .signed hkind hsign h hcolon hbehind

/-! ## Operands and items -/

theorem Primary.isAtom (h : Primary ts e) : e.IsAtom := by
  intro op args heq
  cases h <;> cases heq

theorem Operand.leading (h : Operand ts e) : e.Leading := by
  cases h with
  | plain h => exact .plain h.isAtom
  | signed _ hsign h => exact .sign (isSign_of_signOfSymbol? hsign) h.isAtom

theorem Operand.endsEdge (h : Operand ts e) : e.EndsEdge := by
  cases h with
  | plain h => exact h.isAtom.endsEdge
  | signed _ hsign _ => exact isSign_of_signOfSymbol? hsign

mutual

theorem Behind.joins {ts : List Token} {items : List Item} (h : Behind ts items) :
    Item.Joins items := by
  match h with
  | .nil => exact fun op e hitem => by cases hitem
  | .percent _ _ h =>
    intro op e hitem
    cases hitem with
    | tail _ hitem => exact h.joins op e hitem
  | .binary _ hop htext h =>
    intro op e hitem
    cases hitem with
    | head => exact fixity_of_ofSymbol? hop htext
    | tail _ hitem => exact h.joins op e hitem

theorem Run.joins {ts : List Token} {e : Expr} {items : List Item} (h : Run ts e items) :
    Item.Joins items := by
  match h with
  | .mk _ hbehind => exact hbehind.joins

end

/-! ## What hangs from a range -/

theorem Behind.startsWithRange_iff (h : Behind ts items) (hends : Ends tail) :
    StartsWithRange (ts ++ tail) ↔ ∃ e rest, items = .binary .range e :: rest := by
  cases h with
  | nil =>
    refine iff_of_false ?_ (by simp)
    rintro ⟨colon, rest, htail, hcolon⟩
    rw [List.nil_append] at htail
    rw [htail, Ends, hcolon] at hends
    cases hends
  | @percent t ts items hkind htext h =>
    refine iff_of_false ?_ (by simp)
    rintro ⟨colon, rest, htail, hcolon⟩
    obtain ⟨rfl, -⟩ := List.cons.inj htail
    rw [Climbing.operator?, if_pos hkind, htext] at hcolon
    cases hcolon
  | @binary t op ts e items hkind hop htext h =>
    have hoperator : Climbing.operator? t = some op := (if_pos hkind).trans hop
    constructor
    · rintro ⟨colon, rest, htail, hcolon⟩
      obtain ⟨rfl, -⟩ := List.cons.inj htail
      rw [hoperator, Option.some.injEq] at hcolon
      exact ⟨e, items, by rw [hcolon]⟩
    · rintro ⟨e', rest, hitems⟩
      cases hitems
      exact ⟨t, _, rfl, hoperator⟩

mutual

/-- A chain is where grafting leaves the first operand of a run hanging from a range. -/
theorem Run.chained_iff {ts tail : List Token} {e : Expr} {items : List Item} (h : Run ts e items)
    (hends : Ends tail) : Chained (ts ++ tail) ↔ (e.graftAll items).HangsFromRange := by
  match h with
  | @Run.mk first behind e items hoperand hbehind =>
    rw [List.append_assoc, Item.hangsFromRange_graftAll hoperand.leading hbehind.joins]
    cases hoperand with
    | plain h =>
      rw [h.chained_iff, hbehind.startsWithRange_iff hends]
      simp [h.isAtom.endsEdge, h.isAtom.not_isSign]
    | @signed t sign first e hkind hsign h =>
      have hisSign : (Expr.operator sign [e]).IsSign :=
        ⟨sign, e, rfl, isSign_of_signOfSymbol? hsign⟩
      rw [List.cons_append, h.chained_sign_iff hkind hsign, hbehind.colonChained_iff hends]
      constructor
      · intro hpulls
        obtain ⟨hhangs⟩ := hpulls
        exact ⟨Expr.endsEdge_of_isSign hisSign, _, _, rfl, fun _ => .mk hhangs⟩
      · rintro ⟨-, e', rest, -, hpulls⟩
        exact hpulls hisSign

theorem Behind.colonChained_iff {ts tail : List Token} {items : List Item} (h : Behind ts items)
    (hends : Ends tail) : ColonChained (ts ++ tail) ↔ Item.Pulls items := by
  have hstarts := h.startsWithRange_iff hends
  constructor
  · rintro ⟨colon, rest, htail, hcolon, hchained⟩
    obtain ⟨e, others, rfl⟩ := hstarts.1 ⟨colon, rest, htail, hcolon⟩
    match h with
    | .binary _ _ _ h =>
      obtain ⟨rfl, rfl⟩ := List.cons.inj htail
      exact .mk ((h.chained_iff hends).1 hchained)
  · intro hpulls
    match h, hpulls with
    | .binary hkind hop _ h, .mk hhangs =>
      exact ⟨_, _, rfl, (if_pos hkind).trans hop, (h.chained_iff hends).2 hhangs⟩

end

end Grammar

/-! ## Where chains begin -/

namespace Token

theorem not_beginsChain (h : t.awaitsOperand = false) : t.beginsChain = false := by
  rw [beginsChain, h, Bool.false_and]

theorem beginsChain_of_symbol (hkind : t.kind = .symbol) : t.beginsChain = t.awaitsOperand := by
  rw [beginsChain, Climbing.operator?_of_symbol hkind]
  exact Bool.and_true _

/-- Behind every operator but the range operator a chain may begin. -/
theorem beginsChain_of_operator {op : Operator} (hkind : t.kind = .operator)
    (hop : Operator.ofSymbol? t.text = some op) (htext : t.text ≠ "%") :
    t.beginsChain = decide (op ≠ .range) := by
  have hoperator : Climbing.operator? t = some op := (if_pos hkind).trans hop
  rw [beginsChain, awaitsOperand_of_operator hkind htext, hoperator]
  cases op <;> rfl

theorem beginsChain_of_sign {sign : Operator} (hkind : t.kind = .operator)
    (hsign : Operator.signOfSymbol? t.text = some sign) : t.beginsChain = true := by
  unfold Operator.signOfSymbol? at hsign
  split at hsign
  · next htext =>
    have hop : Operator.ofSymbol? t.text = some .add := by rw [htext]; rfl
    rw [beginsChain_of_operator hkind hop (by rw [htext]; decide)]
    rfl
  · next htext =>
    have hop : Operator.ofSymbol? t.text = some .subtract := by rw [htext]; rfl
    rw [beginsChain_of_operator hkind hop (by rw [htext]; decide)]
    rfl
  · cases hsign

end Token

/-- At a token that is no sign no chain with a sign begins. -/
theorem signedChain_cons (h : t.kind = .operator → start = false) :
    SignedChain start (t :: ts) ↔ SignedChain t.beginsChain ts := by
  constructor
  · intro hchain
    cases hchain with
    | here hkind _ _ _ _ => cases h hkind
    | later hchain => exact hchain
  · exact .later

theorem signedChain_of_kind (hsymbol : t.kind ≠ .symbol) (hoperator : t.kind ≠ .operator) :
    SignedChain start (t :: ts) ↔ SignedChain false ts := by
  rw [signedChain_cons fun hkind => absurd hkind hoperator,
    Token.not_beginsChain (Token.not_awaitsOperand_of_kind hsymbol hoperator)]

theorem signedChain_opens (h : t.opens = true) :
    SignedChain start (t :: ts) ↔ SignedChain true ts := by
  have hkind : t.kind = .symbol := Token.kind_of_opens h
  rw [signedChain_cons (by simp [hkind]), Token.beginsChain_of_symbol hkind,
    Token.awaitsOperand_of_opens h]

theorem signedChain_closes (h : t.closes = true) :
    SignedChain start (t :: ts) ↔ SignedChain false ts := by
  have hkind : t.kind = .symbol := Token.kind_of_closes h
  rw [signedChain_cons (by simp [hkind]),
    Token.not_beginsChain (Token.not_awaitsOperand_of_closes h)]

theorem signedChain_separates (h : t.separates = true) :
    SignedChain start (t :: ts) ↔ SignedChain true ts := by
  have hkind : t.kind = .symbol := Token.kind_of_separates h
  rw [signedChain_cons (by simp [hkind]), Token.beginsChain_of_symbol hkind,
    Token.awaitsOperand_of_separates h]

theorem not_signedChain_nil : ¬ SignedChain start [] := by
  intro h
  cases h

namespace Grammar

/-- At a sign a chain begins, or none does up to the end of its operand. -/
theorem Primary.signedChain_sign_iff {sign : Operator} (h : Primary ts e)
    (hkind : t.kind = .operator) (hsign : Operator.signOfSymbol? t.text = some sign) :
    SignedChain start (t :: (ts ++ tail)) ↔
      start = true ∧ ColonChained tail ∨ SignedChain true (ts ++ tail) := by
  have hbegins : t.beginsChain = true := Token.beginsChain_of_sign hkind hsign
  constructor
  · intro hchain
    generalize heq : t :: (ts ++ tail) = all at hchain
    cases hchain with
    | here _ _ h' hcolon hbehind =>
      obtain ⟨-, htail⟩ := List.cons.inj heq
      obtain ⟨-, rfl⟩ := h.append_inj h' htail
      exact .inl ⟨rfl, _, _, rfl, hcolon, hbehind⟩
    | later hchain =>
      obtain ⟨rfl, rfl⟩ := List.cons.inj heq
      exact .inr (hbegins ▸ hchain)
  · rintro (⟨rfl, colon, rest, rfl, hcolon, hbehind⟩ | hchain)
    · exact .here hkind hsign h hcolon hbehind
    · exact .later (hbegins.symm ▸ hchain)

/-! ## Corners of derivations -/

mutual

theorem Primary.signedChain_iff {ts : List Token} {e : Expr} (h : Primary ts e) (start : Bool)
    (tail : List Token) :
    SignedChain start (ts ++ tail) ↔ e.SignedCorner ∨ SignedChain false tail := by
  match h with
  | @Primary.constant t v hkind _ =>
    rw [List.singleton_append, signedChain_of_kind (by simp [hkind]) (by simp [hkind])]
    simp
  | @Primary.cell t hkind =>
    rw [List.singleton_append, signedChain_of_kind (by simp [hkind]) (by simp [hkind])]
    simp
  | @Primary.call t first last f inner es hkind hname hopens h hcloses =>
    rw [List.cons_append, List.cons_append, List.append_assoc, List.singleton_append,
      signedChain_of_kind (by simp [hkind]) (by simp [hkind]), signedChain_opens hopens,
      h.signedChain_iff hcloses tail, Expr.signedCorner_apply (by simp)]
  | @Primary.group first last inner e items hopens h hcloses =>
    have hends : Ends (last :: tail) := Climbing.ends_of_symbol (Token.kind_of_closes hcloses)
    rw [List.cons_append, List.append_assoc, List.singleton_append, signedChain_opens hopens,
      (h.signedChain_iff hends).1, signedChain_closes hcloses, Expr.signedCorner_group]

theorem Operand.signedChain_iff {ts : List Token} {e : Expr} (h : Operand ts e) (start : Bool)
    (tail : List Token) :
    SignedChain start (ts ++ tail) ↔
      start = true ∧ e.IsSign ∧ ColonChained tail ∨ e.SignedCorner ∨ SignedChain false tail := by
  match h with
  | .plain h =>
    rw [h.signedChain_iff start tail]
    simp [h.isAtom.not_isSign]
  | @Operand.signed t sign ts e hkind hsign h =>
    have hisSign : sign.isSign = true := isSign_of_signOfSymbol? hsign
    have hsigned : (Expr.operator sign [e]).IsSign := ⟨sign, e, rfl, hisSign⟩
    rw [List.cons_append, h.signedChain_sign_iff hkind hsign, h.signedChain_iff true tail,
      Expr.signedCorner_sign hisSign]
    simp [hsigned]

/-- Where a chain may begin, a run has the corners of its tree; where none may begin, those above
the end of its left edge. -/
theorem Run.signedChain_iff {ts tail : List Token} {e : Expr} {items : List Item}
    (h : Run ts e items) (hends : Ends tail) :
    (SignedChain true (ts ++ tail) ↔
        (e.graftAll items).SignedCorner ∨ SignedChain false tail) ∧
      (SignedChain false (ts ++ tail) ↔
        (e.graftAll items).InnerCorner ∨ SignedChain false tail) := by
  match h with
  | .mk hoperand hbehind =>
    rw [List.append_assoc, hoperand.signedChain_iff true, hoperand.signedChain_iff false,
      hbehind.colonChained_iff hends, hbehind.signedChain_iff hends,
      Item.signedCorner_graftAll hoperand.leading hbehind.joins,
      Item.innerCorner_graftAll hoperand.leading hbehind.joins]
    constructor
    · grind
    · simp [or_assoc]

theorem Behind.signedChain_iff {ts tail : List Token} {items : List Item} (h : Behind ts items)
    (hends : Ends tail) :
    SignedChain false (ts ++ tail) ↔ Item.SignedCorners items ∨ SignedChain false tail := by
  match h with
  | .nil => simp [Item.SignedCorners]
  | @Behind.percent t ts items hkind htext h =>
    have hbegins : t.beginsChain = false :=
      Token.not_beginsChain (Token.not_awaitsOperand_of_percent hkind htext)
    rw [List.cons_append, signedChain_cons fun _ => rfl, hbegins, h.signedChain_iff hends,
      Item.SignedCorners]
  | @Behind.binary t op ts e items hkind hop htext h =>
    rw [List.cons_append, signedChain_cons fun _ => rfl,
      Token.beginsChain_of_operator hkind hop htext, Item.SignedCorners]
    by_cases hrange : op = .range
    · rw [if_pos hrange, decide_eq_false (by simp [hrange]), (h.signedChain_iff hends).2]
    · rw [if_neg hrange, decide_eq_true hrange, (h.signedChain_iff hends).1]

theorem Arguments.signedChain_iff {inner : List Token} {es : List Expr} {last : Token}
    (h : Arguments inner es) (hcloses : last.closes = true) (tail : List Token) :
    SignedChain true (inner ++ last :: tail) ↔
      (∃ e ∈ es, e.SignedCorner) ∨ SignedChain false tail := by
  match h with
  | .none =>
    rw [List.nil_append, signedChain_closes hcloses]
    simp
  | .some h => exact h.signedChain_iff hcloses tail

theorem Several.signedChain_iff {inner : List Token} {es : List Expr} {last : Token}
    (h : Several inner es) (hcloses : last.closes = true) (tail : List Token) :
    SignedChain true (inner ++ last :: tail) ↔
      (∃ e ∈ es, e.SignedCorner) ∨ SignedChain false tail := by
  match h with
  | .last h =>
    have hends : Ends (last :: tail) := Climbing.ends_of_symbol (Token.kind_of_closes hcloses)
    rw [(h.signedChain_iff hends).1, signedChain_closes hcloses]
    simp
  | @Several.cons t ts rest e items es h hseparates hrest =>
    have hends : Ends (t :: (rest ++ last :: tail)) :=
      Climbing.ends_of_symbol (Token.kind_of_separates hseparates)
    rw [List.append_assoc, List.cons_append, (h.signedChain_iff hends).1,
      signedChain_separates hseparates, hrest.signedChain_iff hcloses tail]
    simp only [List.mem_cons, exists_eq_or_imp, or_assoc]

end

end Grammar

/-- A tree that is read from tokens has a range with a sign for its left operand exactly if a chain
among the tokens begins with an operand that has a sign, and goes on with one that a further colon
stands behind. -/
theorem Expr.signedCorner_iff_of_ofTokens {tokens : List Token} {limit : Nat} {e : Expr}
    (h : ofTokens tokens limit = .ok e) : e.SignedCorner ↔ SignedChain true tokens := by
  obtain ⟨first, items, hrun, rfl⟩ := derives_of_ofTokens h
  have hends : Ends [] := trivial
  have hchain := (hrun.signedChain_iff hends).1
  rw [List.append_nil] at hchain
  simp [hchain, not_signedChain_nil]

/-- The tokens of `-A1:A2:A3`. -/
def signedChainTokens : List Token :=
  [⟨.operator, "-", none, 0⟩, ⟨.cell, "A1", none, 1⟩, ⟨.operator, ":", none, 3⟩,
    ⟨.cell, "A2", none, 4⟩, ⟨.operator, ":", none, 6⟩, ⟨.cell, "A3", none, 7⟩]

/-- The tree of these tokens: the sign applies to the first range only. -/
def signedChainTree : Expr :=
  .operator .range
    [.operator .negate [.operator .range [.reference "A1", .reference "A2"]], .reference "A3"]

/-- The chain begins with the first token. -/
theorem signedCorner_iff_signedChainTokens :
    Expr.ofTokens signedChainTokens 0 = .ok signedChainTree ∧
      (signedChainTree.SignedCorner ↔ SignedChain true signedChainTokens) ∧
      SignedChain true signedChainTokens := by
  have hread : Expr.ofTokens signedChainTokens 0 = .ok signedChainTree := by
    with_unfolding_all rfl
  have hfirst : Primary [⟨.cell, "A1", none, 1⟩] (.reference "A1") := .cell rfl
  have hsecond : Primary [⟨.cell, "A2", none, 4⟩] (.reference "A2") := .cell rfl
  have hbehind : Chained
      ([⟨.cell, "A2", none, 4⟩] ++ ⟨.operator, ":", none, 6⟩ :: [⟨.cell, "A3", none, 7⟩]) :=
    .plain hsecond rfl
  exact ⟨hread, Expr.signedCorner_iff_of_ofTokens hread, .here rfl rfl hfirst rfl hbehind⟩

/-- A range has a sign for its left operand. -/
theorem exists_signedCorner_of_signedChainTokens :
    ∃ e, Expr.ofTokens signedChainTokens 0 = .ok e ∧ e.SignedCorner := by
  have hread : Expr.ofTokens signedChainTokens 0 = .ok signedChainTree := by
    with_unfolding_all rfl
  exact ⟨signedChainTree, hread, .here ⟨.negate, _, rfl, rfl⟩ _⟩

end Spreadsheet
