import Spreadsheet.Proofs.Formula.Precedence

/-!
# The words of a tree

A tree written out from left to right gives the tokens back that it was read from. Grafting turns a
tree about, but it keeps the order of what is written: what goes down the left edge of a tree stands
in front of that tree. Only a minus sign between operands is written in another way, as a sum with
the negated right operand.

## Main results

* `words_graft`: a grafted tree is written in front, with its operator behind it.
* `words_of_ofTokens`: a tree that is read from tokens has their words, in their order.
-/

namespace Spreadsheet

/-- What is written at one place of a formula. -/
inductive Word
  | constant (value : Option Value)
  | cell (name : String)
  /-- The name of a function, in upper case. -/
  | function (name : String)
  | operator (symbol : String)
  /-- A parenthesis or a comma. -/
  | symbol (text : String)
  deriving DecidableEq

namespace Operator

/-- The words of an operation: its symbol before, between or behind its operands. -/
def arrange (op : Operator) (operands : List (List Word)) : List Word :=
  match op.fixity with
  | .before => .operator op.sourceText :: operands.flatten
  | .between => operands.head?.getD [] ++ .operator op.sourceText :: operands.tail.flatten
  | .behind => operands.flatten ++ [.operator op.sourceText]

/-- What an operator token between two operands becomes. -/
def joint (op : Operator) : List Word :=
  if op = .subtract then [.operator "+", .operator "-"] else [.operator op.sourceText]

end Operator

namespace Expr

mutual

/-- The words of a tree, from left to right. -/
def words : Expr → List Word
  | .constant v => [.constant (some v)]
  | .reference name => [.cell name]
  | .apply (.builtin f) args =>
    .function f.name :: .symbol "(" ::
      ([Word.symbol ","].intercalate (wordsOfAll args) ++ [.symbol ")"])
  | .apply (.operator op) args => op.arrange (wordsOfAll args)
  | .group inner => .symbol "(" :: (inner.words ++ [.symbol ")"])

/-- The words of each of several trees. -/
def wordsOfAll : List Expr → List (List Word)
  | [] => []
  | e :: rest => e.words :: wordsOfAll rest

end

end Expr

/-- The word of a token. -/
def Token.word (t : Token) : Word :=
  match t.kind with
  | .constant => .constant t.value
  | .cell => .cell t.text
  | .function => .function (Text.upperAscii t.text)
  | .operator => .operator t.text
  | .symbol => .symbol t.text

/-- The words of a token; a minus sign that stands where no operand is awaited is a plus sign and a
minus sign. -/
def Token.wordsAt (start : Bool) (t : Token) : List Word :=
  if start = false ∧ t.kind = .operator ∧ t.text = "-" then [.operator "+", .operator "-"]
  else [t.word]

/-- The words of tokens; `start` says whether an operand has to stand where they begin. -/
def wordsFrom (start : Bool) : List Token → List Word
  | [] => []
  | t :: rest => t.wordsAt start ++ wordsFrom t.awaitsOperand rest

variable {start : Bool} {t : Token} {op : Operator} {left right e : Expr}

/-! ## Words of operations -/

namespace Operator

theorem arrange_before (h : op.fixity = .before) (operands : List (List Word)) :
    op.arrange operands = .operator op.sourceText :: operands.flatten := by
  rw [arrange, h]

theorem arrange_behind (h : op.fixity = .behind) (operands : List (List Word)) :
    op.arrange operands = operands.flatten ++ [.operator op.sourceText] := by
  rw [arrange, h]

theorem arrange_between (h : op.fixity = .between) (first : List Word)
    (others : List (List Word)) :
    op.arrange (first :: others) = first ++ .operator op.sourceText :: others.flatten := by
  rw [arrange, h]
  rfl

/-- What stands in front of the first operand stands in front of the operation, unless that begins
with its symbol. -/
theorem arrange_append (h : op.fixity ≠ .before) (front first : List Word)
    (others : List (List Word)) :
    op.arrange ((front ++ first) :: others) = front ++ op.arrange (first :: others) := by
  cases hfixity : op.fixity with
  | before => exact absurd hfixity h
  | between => rw [arrange_between hfixity, arrange_between hfixity, List.append_assoc]
  | behind =>
    rw [arrange_behind hfixity, arrange_behind hfixity, List.flatten_cons, List.flatten_cons,
      List.append_assoc, List.append_assoc, List.append_assoc]

end Operator

/-! ## Words of grafted trees -/

namespace Expr

theorem words_sign {sign : Operator} (h : sign.isSign = true) :
    (operator sign [e]).words = .operator sign.sourceText :: e.words := by
  have hfixity : sign.fixity = .before := by simpa [Operator.isSign] using h
  rw [words, wordsOfAll, wordsOfAll, Operator.arrange_before hfixity]
  simp

theorem words_percent : (operator .percent [e]).words = e.words ++ [.operator "%"] := by
  rw [words, wordsOfAll, wordsOfAll, Operator.arrange_behind rfl]
  simp [Operator.sourceText, Operator.symbol]

theorem words_between (h : op.fixity = .between) :
    (operator op [left, right]).words = left.words ++ .operator op.sourceText :: right.words := by
  rw [words, wordsOfAll, wordsOfAll, wordsOfAll, Operator.arrange_between h]
  simp

theorem words_place (h : op.fixity = .between) :
    (place op right left).words = left.words ++ .operator op.sourceText :: right.words := by
  fun_induction place op right left with
  | case1 sign operand hsign ih =>
    rw [Bool.and_eq_true] at hsign
    rw [words_sign hsign.1, words_sign hsign.1, ih, List.cons_append]
  | case2 sign operand _ => exact words_between h
  | case3 left _ => exact words_between h

theorem words_join (h : op.fixity = .between) :
    (join left op right).words = left.words ++ (op.joint ++ right.words) := by
  rw [join, Operator.joint]
  split
  · rw [words_place rfl, words_sign rfl]
    rfl
  · rw [words_place h]
    rfl

/-- A grafted tree is written in front of the other one, with its operator behind it. -/
theorem words_graft (h : op.fixity = .between) :
    (graft left op right).words = left.words ++ (op.joint ++ right.words) := by
  fun_induction graft left op right with
  | case1 inner first others hdescends ih =>
    have hinner : inner.fixity ≠ .before := by
      intro hbefore
      simp [Operator.descends, hbefore] at hdescends
    rw [words, wordsOfAll, ih, words, wordsOfAll, ← List.append_assoc,
      Operator.arrange_append hinner, List.append_assoc]
  | case2 inner first others _ => exact words_join h
  | case3 right _ => exact words_join h

end Expr

/-! ## Words of tokens -/

theorem wordsFrom_append (before after : List Token) :
    wordsFrom start (before ++ after) =
      wordsFrom start before ++ wordsFrom (awaitsOperand start before) after := by
  induction before generalizing start with
  | nil => rfl
  | cons t rest ih =>
    rw [List.cons_append, wordsFrom, wordsFrom, awaitsOperand, ih, List.append_assoc]

namespace Token

theorem wordsAt_of_kind (h : t.kind ≠ .operator) : t.wordsAt start = [t.word] := by
  rw [wordsAt, if_neg (by simp [h])]

theorem wordsAt_start : t.wordsAt true = [t.word] := by
  rw [wordsAt, if_neg (by simp)]

theorem word_of_isSymbol {s : String} (h : t.isSymbol s = true) : t.word = .symbol s := by
  rw [isSymbol, Bool.and_eq_true] at h
  rw [word, eq_of_beq h.1, eq_of_beq h.2]

theorem word_of_operator (hkind : t.kind = .operator) : t.word = .operator t.text := by
  rw [word, hkind]

theorem wordsAt_of_opens (h : t.opens = true) : t.wordsAt start = [.symbol "("] := by
  rw [wordsAt_of_kind (by simp [kind_of_opens h]), word_of_isSymbol h]

theorem wordsAt_of_closes (h : t.closes = true) : t.wordsAt start = [.symbol ")"] := by
  rw [wordsAt_of_kind (by simp [kind_of_closes h]), word_of_isSymbol h]

theorem wordsAt_of_separates (h : t.separates = true) : t.wordsAt start = [.symbol ","] := by
  rw [wordsAt_of_kind (by simp [kind_of_separates h]), word_of_isSymbol h]

theorem word_of_builtin {f : Builtin} (hkind : t.kind = .function)
    (hname : Builtin.ofName? t.text = some f) : t.word = .function f.name := by
  rw [word, hkind, Builtin.name_of_ofName? hname]

theorem sourceText_of_signOfSymbol? {symbol : String} {sign : Operator}
    (h : Operator.signOfSymbol? symbol = some sign) : sign.sourceText = symbol := by
  unfold Operator.signOfSymbol? at h
  split at h <;> cases h <;> rfl

theorem wordsAt_of_percent (hkind : t.kind = .operator) (htext : t.text = "%") :
    t.wordsAt start = [.operator "%"] := by
  rw [wordsAt, if_neg (by simp [htext]), word_of_operator hkind, htext]

/-- Behind an operand, an operator token is written as its operator joins two trees. -/
theorem wordsAt_of_ofSymbol? (hkind : t.kind = .operator)
    (hop : Operator.ofSymbol? t.text = some op) : t.wordsAt false = op.joint := by
  rw [wordsAt, word_of_operator hkind, hkind]
  unfold Operator.ofSymbol? at hop
  split at hop <;> cases hop <;> simp [*, Operator.joint, Operator.sourceText, Operator.symbol]

end Token

/-! ## Words of derivations -/

namespace Grammar

mutual

theorem Primary.words {ts : List Token} {e : Expr} (h : Primary ts e) :
    e.words = wordsFrom true ts := by
  match h with
  | .constant hkind hvalue =>
    rw [wordsFrom, wordsFrom, Token.wordsAt_start, Token.word, hkind, hvalue, Expr.words]
    rfl
  | .cell hkind =>
    rw [wordsFrom, wordsFrom, Token.wordsAt_start, Token.word, hkind, Expr.words]
    rfl
  | @Primary.call t first last f inner es hkind hname hopens h hcloses =>
    rw [wordsFrom, wordsFrom, Token.wordsAt_start, Token.word_of_builtin hkind hname,
      Token.wordsAt_of_opens hopens, Token.awaitsOperand_of_opens hopens, wordsFrom_append,
      wordsFrom, wordsFrom, Token.wordsAt_of_closes hcloses, Expr.words, h.words]
    rfl
  | .group hopens h hcloses =>
    rw [wordsFrom, Token.wordsAt_of_opens hopens, Token.awaitsOperand_of_opens hopens,
      wordsFrom_append, wordsFrom, wordsFrom, Token.wordsAt_of_closes hcloses, Expr.words, h.words]
    rfl

theorem Operand.words {ts : List Token} {e : Expr} (h : Operand ts e) :
    e.words = wordsFrom true ts := by
  match h with
  | .plain h => exact h.words
  | @Operand.signed t sign ts e hkind hsign h =>
    have htext : t.text = sign.sourceText := (Token.sourceText_of_signOfSymbol? hsign).symm
    rw [Expr.words_sign (isSign_of_signOfSymbol? hsign), wordsFrom, Token.wordsAt_start,
      Token.word_of_operator hkind, htext, Token.awaitsOperand_of_sign hkind hsign, h.words]
    rfl

/-- The words of a run are those of its tokens. -/
theorem Run.words {ts : List Token} {e : Expr} {items : List Item} (h : Run ts e items) :
    (e.graftAll items).words = wordsFrom true ts := by
  match h with
  | .mk hoperand hbehind =>
    rw [hbehind.words, wordsFrom_append, hoperand.words, hoperand.not_awaitsOperand]

/-- What stands behind an operand is written behind it. -/
theorem Behind.words {ts : List Token} {items : List Item} {left : Expr} (h : Behind ts items) :
    (left.graftAll items).words = left.words ++ wordsFrom false ts := by
  match h with
  | .nil => exact (List.append_nil _).symm
  | .percent hkind htext h =>
    rw [Expr.graftAll, h.words, Expr.words_percent, wordsFrom, Token.wordsAt_of_percent hkind htext,
      Token.not_awaitsOperand_of_percent hkind htext, List.append_assoc]
  | .binary hkind hop htext h =>
    rw [Expr.graftAll, Expr.words_graft (fixity_of_ofSymbol? hop htext), h.words, wordsFrom,
      Token.wordsAt_of_ofSymbol? hkind hop, Token.awaitsOperand_of_operator hkind htext]

theorem Arguments.words {ts : List Token} {es : List Expr} (h : Arguments ts es) :
    [Word.symbol ","].intercalate (Expr.wordsOfAll es) = wordsFrom true ts := by
  match h with
  | .none => rfl
  | .some h => exact h.words

theorem Several.words {ts : List Token} {es : List Expr} (h : Several ts es) :
    [Word.symbol ","].intercalate (Expr.wordsOfAll es) = wordsFrom true ts := by
  match h with
  | .last h =>
    rw [Expr.wordsOfAll, Expr.wordsOfAll, h.words]
    simp [List.intercalate]
  | @Several.cons t ts rest e items es h hseparates hrest =>
    rw [wordsFrom_append, wordsFrom, Token.wordsAt_of_separates hseparates,
      Token.awaitsOperand_of_separates hseparates, ← h.words, ← hrest.words]
    cases hrest with
    | last _ => simp [List.intercalate, Expr.wordsOfAll]
    | cons _ _ _ => simp [List.intercalate, Expr.wordsOfAll]

end

end Grammar

/-- A tree that is read from tokens has their words, in their order. -/
theorem Expr.words_of_ofTokens {tokens : List Token} {limit : Nat}
    (h : ofTokens tokens limit = .ok e) : e.words = wordsFrom true tokens := by
  obtain ⟨first, items, hrun, rfl⟩ := derives_of_ofTokens h
  exact hrun.words

/-- The tokens of `-A1:A2-sum(B1,TRUE)`. -/
def differenceTokens : List Token :=
  [⟨.operator, "-", none, 0⟩, ⟨.cell, "A1", none, 1⟩, ⟨.operator, ":", none, 3⟩,
    ⟨.cell, "A2", none, 4⟩, ⟨.operator, "-", none, 6⟩, ⟨.function, "sum", none, 7⟩,
    ⟨.symbol, "(", none, 10⟩, ⟨.cell, "B1", none, 11⟩, ⟨.symbol, ",", none, 13⟩,
    ⟨.constant, "TRUE", some (.boolean true), 14⟩, ⟨.symbol, ")", none, 18⟩]

/-- The first minus sign stays as it is, and the second one follows a plus sign. -/
theorem words_differenceTokens :
    ∃ e, Expr.ofTokens differenceTokens 1 = .ok e ∧ e.words = wordsFrom true differenceTokens ∧
      wordsFrom true differenceTokens =
        [.operator "-", .cell "A1", .operator ":", .cell "A2", .operator "+", .operator "-",
          .function "SUM", .symbol "(", .cell "B1", .symbol ",", .constant (some (.boolean true)),
          .symbol ")"] := by
  have hread : Expr.ofTokens differenceTokens 1 =
      .ok (.operator .add [.operator .negate [.operator .range [.reference "A1", .reference "A2"]],
        .operator .negate
          [.apply (.builtin .sum) [.reference "B1", .constant (.boolean true)]]]) := by
    with_unfolding_all rfl
  exact ⟨_, hread, Expr.words_of_ofTokens hread, by decide +kernel⟩

end Spreadsheet
