import Spreadsheet.Proofs.Formula.Climb

/-!
# Reading by climbing

The textbook way to read operators: an expression is read from left to right, and for every operator
as much to the right as binds more tightly. Groups and calls are not looked for beforehand; the
parenthesis or comma behind an expression ends it.
-/

namespace Spreadsheet

namespace Climbing

/-- The operators, from the tightest to the loosest. -/
def tiers : List (List Operator) :=
  [[.range], [.identity, .negate], [.percent], [.power], [.multiply, .divide], [.add, .subtract],
    [.concat], [.equal, .notEqual, .lessThan, .lessEqual, .greaterThan, .greaterEqual]]

/-- How tightly an operator binds. -/
def level (op : Operator) : Nat :=
  tiers.length - tiers.findIdx (·.contains op)

theorem level_eq (op : Operator) : level op = op.strength := by
  cases op <;> rfl

/-- The operator that a token stands for behind an operand. -/
def operator? (t : Token) : Option Operator :=
  if t.kind = .operator then Operator.ofSymbol? t.text else none

mutual

/-- Reads an expression whose operators bind at least as tightly as `lowest`, as far as it goes. -/
def expression (lowest : Nat) (ts : List Token) :
    Option (Expr × { rest : List Token // rest.length < ts.length }) :=
  match operand ts with
  | none => none
  | some (left, ⟨behind, hb⟩) =>
    match onward lowest left behind with
    | none => none
    | some (e, ⟨rest, hr⟩) => some (e, ⟨rest, Nat.lt_of_le_of_lt hr hb⟩)
termination_by 2 * ts.length + 1

/-- Reads on behind an operand, or behind what has been read so far. -/
def onward (lowest : Nat) (left : Expr) (ts : List Token) :
    Option (Expr × { rest : List Token // rest.length ≤ ts.length }) :=
  match ts with
  | [] => some (left, ⟨[], Nat.le_refl _⟩)
  | t :: rest =>
    match operator? t with
    | none => some (left, ⟨t :: rest, Nat.le_refl _⟩)
    | some op =>
      if level op < lowest then some (left, ⟨t :: rest, Nat.le_refl _⟩)
      else if op = .percent then
        match onward lowest (.operator .percent [left]) rest with
        | none => none
        | some (e, ⟨last, hl⟩) => some (e, ⟨last, Nat.le_succ_of_le hl⟩)
      else
        match expression (level op + 1) rest with
        | none => none
        | some (right, ⟨behind, hb⟩) =>
          match onward lowest (left.between op right) behind with
          | none => none
          | some (e, ⟨last, hl⟩) =>
            some (e, ⟨last, Nat.le_succ_of_le (Nat.le_trans hl (Nat.le_of_lt hb))⟩)
termination_by 2 * ts.length

/-- Reads an operand; behind a sign, everything that binds more tightly than the sign. -/
def operand (ts : List Token) :
    Option (Expr × { rest : List Token // rest.length < ts.length }) :=
  match ts with
  | [] => none
  | t :: rest =>
    match t.kind with
    | .constant => t.value.map fun v => (.constant v, ⟨rest, Nat.lt_succ_self _⟩)
    | .cell => some (.reference t.text, ⟨rest, Nat.lt_succ_self _⟩)
    | .operator =>
      match Operator.signOfSymbol? t.text with
      | none => none
      | some sign =>
        match expression (level sign + 1) rest with
        | none => none
        | some (e, ⟨behind, hb⟩) => some (.operator sign [e], ⟨behind, Nat.lt_succ_of_lt hb⟩)
    | .function =>
      match Builtin.ofName? t.text, rest with
      | some f, first :: inner =>
        if first.opens then
          match arguments inner with
          | none => none
          | some (es, ⟨behind, hb⟩) =>
            some (.apply (.builtin f) es, ⟨behind, Nat.lt_succ_of_lt (Nat.lt_succ_of_lt hb)⟩)
        else none
      | _, _ => none
    | .symbol =>
      if t.opens then
        match expression 0 rest with
        | some (e, ⟨last :: behind, hb⟩) =>
          if last.closes then some (.group e, ⟨behind, Nat.lt_succ_of_lt (Nat.lt_of_succ_lt hb)⟩)
          else none
        | _ => none
      else none
termination_by 2 * ts.length

/-- Reads the arguments behind the opening parenthesis of a call, and the closing parenthesis. -/
def arguments (ts : List Token) :
    Option (List Expr × { rest : List Token // rest.length < ts.length }) :=
  match ts with
  | [] => none
  | t :: rest => if t.closes then some ([], ⟨rest, Nat.lt_succ_self _⟩) else several (t :: rest)
termination_by 2 * ts.length + 3

/-- Reads one argument or more, and the closing parenthesis. -/
def several (ts : List Token) :
    Option (List Expr × { rest : List Token // rest.length < ts.length }) :=
  match expression 0 ts with
  | some (e, ⟨t :: rest, hr⟩) =>
    if t.closes then some ([e], ⟨rest, Nat.lt_of_succ_lt hr⟩)
    else if t.separates then
      match several rest with
      | none => none
      | some (es, ⟨behind, hb⟩) =>
        some (e :: es, ⟨behind, Nat.lt_trans hb (Nat.lt_of_succ_lt hr)⟩)
    else none
  | _ => none
termination_by 2 * ts.length + 2
decreasing_by
  · omega
  · rw [List.length_cons] at hr
    omega

end

/-- The tree of a whole list of tokens. -/
def parse (ts : List Token) : Option Expr :=
  match expression 0 ts with
  | some (e, ⟨[], _⟩) => some e
  | _ => none

/-! ## What is left behind -/

/-- A reader gives a result and leaves some tokens behind. -/
def Leaves {α : Type} {P : List Token → Prop} (r : Option (α × { rest : List Token // P rest }))
    (a : α) (rest : List Token) : Prop :=
  ∃ h : P rest, r = some (a, ⟨rest, h⟩)

variable {t : Token} {ts rest tail : List Token} {e left : Expr} {lowest : Nat}

theorem leaves_expression {behind : List Token} (hoperand : Leaves (operand ts) left behind)
    (honward : Leaves (onward lowest left behind) e rest) :
    Leaves (expression lowest ts) e rest := by
  obtain ⟨hb, hoperand⟩ := hoperand
  obtain ⟨hr, honward⟩ := honward
  refine ⟨Nat.lt_of_le_of_lt hr hb, ?_⟩
  rw [expression, hoperand]
  dsimp only
  rw [honward]

theorem leaves_onward_nil : Leaves (onward lowest left []) left [] := by
  rw [onward]
  exact ⟨Nat.le_refl _, rfl⟩

/-- Reading on ends where no operator stands. -/
theorem leaves_onward_other (h : operator? t = none) :
    Leaves (onward lowest left (t :: rest)) left (t :: rest) := by
  rw [onward]
  rw [h]
  exact ⟨Nat.le_refl _, rfl⟩

/-- Reading on ends before an operator that binds too loosely. -/
theorem leaves_onward_looser {op : Operator} (h : operator? t = some op)
    (hlt : op.strength < lowest) :
    Leaves (onward lowest left (t :: rest)) left (t :: rest) := by
  rw [onward]
  rw [h]
  dsimp only
  rw [if_pos (by rwa [level_eq])]
  exact ⟨Nat.le_refl _, rfl⟩

theorem leaves_onward_percent {last : List Token} (h : operator? t = some .percent)
    (hle : lowest ≤ Operator.percent.strength)
    (honward : Leaves (onward lowest (.operator .percent [left]) rest) e last) :
    Leaves (onward lowest left (t :: rest)) e last := by
  obtain ⟨hl, honward⟩ := honward
  refine ⟨Nat.le_succ_of_le hl, ?_⟩
  rw [onward]
  dsimp only
  rw [h]
  dsimp only
  rw [if_neg (by rw [level_eq]; omega), if_pos rfl, honward]

theorem leaves_onward_binary {op : Operator} {right : Expr} {behind last : List Token}
    (h : operator? t = some op) (hpercent : op ≠ .percent) (hle : lowest ≤ op.strength)
    (hright : Leaves (expression (op.strength + 1) rest) right behind)
    (honward : Leaves (onward lowest (left.between op right) behind) e last) :
    Leaves (onward lowest left (t :: rest)) e last := by
  obtain ⟨hb, hright⟩ := hright
  obtain ⟨hl, honward⟩ := honward
  refine ⟨Nat.le_succ_of_le (Nat.le_trans hl (Nat.le_of_lt hb)), ?_⟩
  rw [onward]
  dsimp only
  rw [h]
  dsimp only
  rw [if_neg (by rw [level_eq]; omega), if_neg hpercent, level_eq, hright]
  dsimp only
  rw [honward]

theorem leaves_operand_constant {v : Value} (hkind : t.kind = .constant)
    (hvalue : t.value = some v) : Leaves (operand (t :: rest)) (.constant v) rest := by
  refine ⟨Nat.lt_succ_self _, ?_⟩
  rw [operand]
  dsimp only
  rw [hkind]
  dsimp only
  rw [hvalue]
  rfl

theorem leaves_operand_cell (hkind : t.kind = .cell) :
    Leaves (operand (t :: rest)) (.reference t.text) rest := by
  refine ⟨Nat.lt_succ_self _, ?_⟩
  rw [operand]
  dsimp only
  rw [hkind]

theorem leaves_operand_sign {sign : Operator} (hkind : t.kind = .operator)
    (hsign : Operator.signOfSymbol? t.text = some sign)
    (h : Leaves (expression (sign.strength + 1) ts) e rest) :
    Leaves (operand (t :: ts)) (.operator sign [e]) rest := by
  obtain ⟨hb, h⟩ := h
  refine ⟨Nat.lt_succ_of_lt hb, ?_⟩
  rw [operand]
  dsimp only
  rw [hkind]
  dsimp only
  rw [hsign]
  dsimp only
  rw [level_eq, h]

theorem leaves_operand_call {first : Token} {f : Builtin} {es : List Expr}
    (hkind : t.kind = .function) (hname : Builtin.ofName? t.text = some f)
    (hopens : first.opens = true) (h : Leaves (arguments ts) es rest) :
    Leaves (operand (t :: first :: ts)) (.apply (.builtin f) es) rest := by
  obtain ⟨hb, h⟩ := h
  refine ⟨Nat.lt_succ_of_lt (Nat.lt_succ_of_lt hb), ?_⟩
  rw [operand]
  dsimp only
  rw [hkind]
  dsimp only
  rw [hname]
  dsimp only
  rw [if_pos hopens, h]

theorem operator?_of_symbol (h : t.kind = .symbol) : operator? t = none := by
  rw [operator?, if_neg (by rw [h]; decide)]

theorem leaves_operand_group {last : Token} (hopens : t.opens = true) (hcloses : last.closes = true)
    (h : Leaves (expression 0 ts) e (last :: rest)) :
    Leaves (operand (t :: ts)) (.group e) rest := by
  obtain ⟨hb, h⟩ := h
  refine ⟨Nat.lt_succ_of_lt (Nat.lt_of_succ_lt hb), ?_⟩
  rw [operand]
  dsimp only
  rw [Token.kind_of_opens hopens]
  dsimp only
  rw [if_pos hopens, h]
  dsimp only
  rw [if_pos hcloses]

theorem operand_of_closes (h : t.closes = true) : operand (t :: ts) = none := by
  rw [operand]
  rw [Token.kind_of_closes h]
  dsimp only
  rw [if_neg (by rw [Token.not_opens_of_closes h]; decide)]

theorem leaves_several_last {last : Token} (hcloses : last.closes = true)
    (h : Leaves (expression 0 ts) e (last :: rest)) : Leaves (several ts) [e] rest := by
  obtain ⟨hr, h⟩ := h
  refine ⟨Nat.lt_of_succ_lt hr, ?_⟩
  rw [several, h]
  dsimp only
  rw [if_pos hcloses]

theorem leaves_several_cons {es : List Expr} (hseparates : t.separates = true)
    (h : Leaves (expression 0 ts) e (t :: rest)) (hrest : Leaves (several rest) es tail) :
    Leaves (several ts) (e :: es) tail := by
  obtain ⟨hr, h⟩ := h
  obtain ⟨hb, hrest⟩ := hrest
  refine ⟨Nat.lt_trans hb (Nat.lt_of_succ_lt hr), ?_⟩
  rw [several, h]
  dsimp only
  rw [if_neg (by rw [Token.not_closes_of_separates hseparates]; decide), if_pos hseparates, hrest]

theorem leaves_arguments_none (hcloses : t.closes = true) :
    Leaves (arguments (t :: rest)) [] rest := by
  rw [arguments]
  rw [if_pos hcloses]
  exact ⟨Nat.lt_succ_self _, rfl⟩

/-- No argument begins with a closing parenthesis. -/
theorem leaves_arguments_some {es : List Expr} (h : Leaves (several ts) es rest) :
    Leaves (arguments ts) es rest := by
  match ts with
  | [] =>
    obtain ⟨hb, _⟩ := h
    exact absurd hb (Nat.not_lt_zero _)
  | t :: ts =>
    rw [arguments]
    rw [if_neg]
    · exact h
    · intro hcloses
      obtain ⟨_, h⟩ := h
      rw [several, expression, operand_of_closes hcloses] at h
      cases h

end Climbing

end Spreadsheet
