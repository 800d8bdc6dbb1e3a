import Spreadsheet.Formula.Run

/-!
# The grammar of formulas

A run of tokens is an operand and what stands behind it: percent signs, and operators with further
runs behind them. An operand is a constant, a cell name, a call or a group, with or without a sign.
The grammar says nothing about which operator binds first; that is left to the tree that the items
behind an operand are grafted into.

```text
run      := operand behind
behind   := nothing | `%` behind | operator run
operand  := primary | sign primary
primary  := constant | cell | function `(` arguments `)` | `(` run `)`
```

## Main results

* `Group.joined_of_arguments`: the arguments of a call, with commas between them, are its tokens.
* `Run.derives_of_read`: what is read derives from the grammar, with the tree that it is given.
-/

namespace Spreadsheet

/-! ## Parentheses and commas -/

namespace Token

variable {t : Token}

theorem kind_of_opens (h : t.opens = true) : t.kind = .symbol := by
  rw [opens, isSymbol, Bool.and_eq_true] at h
  exact eq_of_beq h.1

theorem kind_of_closes (h : t.closes = true) : t.kind = .symbol := by
  rw [closes, isSymbol, Bool.and_eq_true] at h
  exact eq_of_beq h.1

theorem kind_of_separates (h : t.separates = true) : t.kind = .symbol := by
  rw [separates, isSymbol, Bool.and_eq_true] at h
  exact eq_of_beq h.1

theorem not_opens_of_closes (h : t.closes = true) : t.opens = false := by
  rw [closes, isSymbol, Bool.and_eq_true] at h
  rw [opens, isSymbol, eq_of_beq h.2]
  exact Bool.and_false _

theorem not_closes_of_separates (h : t.separates = true) : t.closes = false := by
  rw [separates, isSymbol, Bool.and_eq_true] at h
  rw [closes, isSymbol, eq_of_beq h.2]
  exact Bool.and_false _

theorem not_opens_of_separates (h : t.separates = true) : t.opens = false := by
  rw [separates, isSymbol, Bool.and_eq_true] at h
  rw [opens, isSymbol, eq_of_beq h.2]
  exact Bool.and_false _

theorem not_separates_of_opens (h : t.opens = true) : t.separates = false := by
  rw [opens, isSymbol, Bool.and_eq_true] at h
  rw [separates, isSymbol, eq_of_beq h.2]
  exact Bool.and_false _

end Token

/-- What stands behind an operand. -/
inductive Item
  | percent
  /-- An operator between two operands, and the second one. -/
  | binary (op : Operator) (operand : Expr)

/-- The tree of an operand and the items behind it, grafted from right to left. -/
def Expr.graftAll : Expr → List Item → Expr
  | left, [] => left
  | left, .percent :: rest => graftAll (.operator .percent [left]) rest
  | left, .binary op operand :: rest => graft left op (graftAll operand rest)

namespace Grammar

mutual

/-- An operand without a sign. -/
inductive Primary : List Token → Expr → Prop
  | constant {t : Token} {v : Value} (hkind : t.kind = .constant) (hvalue : t.value = some v) :
    Primary [t] (.constant v)
  | cell {t : Token} (hkind : t.kind = .cell) : Primary [t] (.reference t.text)
  | call {t first last : Token} {f : Builtin} {inner : List Token} {es : List Expr}
    (hkind : t.kind = .function) (hname : Builtin.ofName? t.text = some f)
    (hopens : first.opens = true) (h : Arguments inner es) (hcloses : last.closes = true) :
    Primary (t :: first :: (inner ++ [last])) (.apply (.builtin f) es)
  | group {first last : Token} {inner : List Token} {e : Expr} {items : List Item}
    (hopens : first.opens = true) (h : Run inner e items) (hcloses : last.closes = true) :
    Primary (first :: (inner ++ [last])) (.group (e.graftAll items))

/-- An operand. -/
inductive Operand : List Token → Expr → Prop
  | plain {ts : List Token} {e : Expr} (h : Primary ts e) : Operand ts e
  | signed {t : Token} {sign : Operator} {ts : List Token} {e : Expr} (hkind : t.kind = .operator)
    (hsign : Operator.signOfSymbol? t.text = some sign) (h : Primary ts e) :
    Operand (t :: ts) (.operator sign [e])

/-- A run: its first operand, and the items behind it. -/
inductive Run : List Token → Expr → List Item → Prop
  | mk {ts behind : List Token} {e : Expr} {items : List Item} (h : Operand ts e)
    (hbehind : Behind behind items) : Run (ts ++ behind) e items

/-- What stands behind an operand. -/
inductive Behind : List Token → List Item → Prop
  | nil : Behind [] []
  | percent {t : Token} {ts : List Token} {items : List Item} (hkind : t.kind = .operator)
    (htext : t.text = "%") (h : Behind ts items) : Behind (t :: ts) (.percent :: items)
  | binary {t : Token} {op : Operator} {ts : List Token} {e : Expr} {items : List Item}
    (hkind : t.kind = .operator) (hop : Operator.ofSymbol? t.text = some op) (htext : t.text ≠ "%")
    (h : Run ts e items) : Behind (t :: ts) (.binary op e :: items)

/-- The arguments of a call. -/
inductive Arguments : List Token → List Expr → Prop
  | none : Arguments [] []
  | some {ts : List Token} {es : List Expr} (h : Several ts es) : Arguments ts es

/-- One argument or more. -/
inductive Several : List Token → List Expr → Prop
  | last {ts : List Token} {e : Expr} {items : List Item} (h : Run ts e items) :
    Several ts [e.graftAll items]
  | cons {t : Token} {ts rest : List Token} {e : Expr} {items : List Item} {es : List Expr}
    (h : Run ts e items) (hseparates : t.separates = true) (hrest : Several rest es) :
    Several (ts ++ t :: rest) (e.graftAll items :: es)

end

end Grammar

/-! ## Groups and arguments -/

namespace Group

theorem closes_of_enclosed? {depth : Nat} {ts run behind : List Token} {t : Token}
    (h : enclosed? depth ts = some (run, t, behind)) : t.closes = true := by
  fun_induction enclosed? depth ts generalizing run t behind with
  | case1 => cases h
  | case2 depth u rest _ ih =>
    obtain ⟨⟨r, s⟩, hr, he⟩ := Option.map_eq_some_iff.1 h
    cases he
    exact ih hr
  | case3 u rest _ hcloses =>
    cases h
    exact hcloses
  | case4 u rest _ _ depth ih =>
    obtain ⟨⟨r, s⟩, hr, he⟩ := Option.map_eq_some_iff.1 h
    cases he
    exact ih hr
  | case5 depth u rest _ _ ih =>
    obtain ⟨⟨r, s⟩, hr, he⟩ := Option.map_eq_some_iff.1 h
    cases he
    exact ih hr

/-- A group is its opening parenthesis, its run and its closing parenthesis. -/
theorem eq_of_take {ts run behind : List Token} (h : take ts = .ok (run, behind)) :
    ∃ first last, first.opens = true ∧ last.closes = true ∧
      ts = first :: (run ++ last :: behind) := by
  unfold take at h
  split at h
  · cases h
  · next first rest =>
    split at h
    · cases h
    · next hopens =>
      split at h
      · next last _ he =>
        cases h
        exact ⟨first, last, by simpa using hopens, closes_of_enclosed? he,
          congrArg (first :: ·) (eq_of_enclosed? he)⟩
      · cases h

/-- Arguments and the commas between them. -/
inductive Joined : List Token → List (List Token) → Prop
  | last (arg : List Token) : Joined arg [arg]
  | cons {t : Token} {rest : List Token} {args : List (List Token)} (arg : List Token)
    (hseparates : t.separates = true) (h : Joined rest args) :
    Joined (arg ++ t :: rest) (arg :: args)

theorem joined_of_splitFrom {depth : Nat} {current ts : List Token} {args : List (List Token)}
    (h : splitFrom depth current ts = .ok args) : Joined (current.reverse ++ ts) args := by
  fun_induction splitFrom depth current ts generalizing args with
  | case1 current =>
    cases h
    rw [List.append_nil]
    exact .last _
  | case2 | case4 | case6 | case7 => cases h
  | case3 depth current t rest _ ih => simpa using ih h
  | case5 current t rest _ _ depth ih => simpa using ih h
  | case8 depth current t rest _ _ hseparates _ _ ih =>
    cases hs : splitFrom 0 [] rest with
    | error e => simp [hs, Except.map] at h
    | ok others =>
      simp only [hs, Except.map, Except.ok.injEq] at h
      subst h
      rw [Bool.and_eq_true] at hseparates
      exact .cons current.reverse hseparates.1 (ih hs)
  | case9 depth current t rest _ _ _ ih => simpa using ih h

/-- The arguments of a run, with the commas between them, make up the run. -/
theorem joined_of_arguments {run : List Token} {args : List (List Token)}
    (h : arguments run = .ok args) : run = [] ∧ args = [] ∨ Joined run args := by
  unfold arguments at h
  split at h
  · next hempty =>
    cases h
    exact .inl ⟨List.isEmpty_iff.1 hempty, rfl⟩
  · exact .inr (joined_of_splitFrom h)

end Group

/-! ## Reading follows the grammar -/

namespace Run

/-- What is read of a run, of which some operands are pending already. -/
def ReadsAs (pending : List Pending) (last : Option Expr) (ts : List Token) (e : Expr) : Prop :=
  match last with
  | none => ∃ first items, Grammar.Run ts first items ∧
      e = .ofChain pending (first.graftAll items)
  | some left => ∃ items, Grammar.Behind ts items ∧ e = .ofChain pending (left.graftAll items)

mutual

/-- What is read derives from the grammar, with the tree that it is given. -/
theorem derives_of_read {limit depth : Nat} {pending : List Pending} {last : Option Expr}
    {ts : List Token} {e : Expr} (h : read limit depth pending last ts = .ok e) :
    ReadsAs pending last ts e := by
  match ts with
  | [] =>
    rw [read] at h
    cases last with
    | none => cases pending <;> cases h
    | some left =>
      cases h
      exact ⟨[], .nil, rfl⟩
  | t :: rest =>
    unfold read at h
    dsimp only at h
    split at h
    · cases h
    · next first behind hb hoperand =>
      have : behind.length < rest.length + 1 := hb
      obtain ⟨front, hfront, hprimary⟩ := derives_of_operand? hoperand
      split at h
      · cases h
      · next hlast =>
        have hnone : last = none := by simpa using hlast
        obtain ⟨items, hbehind, htree⟩ := derives_of_read h
        subst hnone
        rw [hfront]
        exact ⟨first, items, .mk (.plain hprimary) hbehind, htree⟩
    · split at h
      · cases h
      · next hkind =>
        have hoperator : t.kind = .operator := by simpa using hkind
        split at h
        · split at h
          · cases h
          · next sign hsign =>
            split at h
            · cases h
            · cases h
            · next first behind hb hoperand =>
              obtain ⟨front, hfront, hprimary⟩ := derives_of_operand? hoperand
              obtain ⟨items, hbehind, htree⟩ := derives_of_read h
              rw [hfront]
              exact ⟨_, items, .mk (.signed hoperator hsign hprimary) hbehind, htree⟩
        · next left =>
          split at h
          · next htext =>
            obtain ⟨items, hbehind, htree⟩ := derives_of_read h
            exact ⟨.percent :: items, .percent hoperator htext hbehind, htree⟩
          · next htext =>
            split at h
            · cases h
            · next op hop =>
              obtain ⟨first, items, hrun, htree⟩ := derives_of_read h
              exact ⟨.binary op first :: items, .binary hoperator hop htext hrun, htree⟩
termination_by 2 * ts.length + 1

/-- What is read as an operand is one. -/
theorem derives_of_operand? {limit depth : Nat} {ts behind : List Token} {e : Expr}
    {hb : behind.length < ts.length}
    (h : operand? limit depth ts = .ok (some (e, ⟨behind, hb⟩))) :
    ∃ front, ts = front ++ behind ∧ Grammar.Primary front e := by
  match ts with
  | [] =>
    rw [operand?] at h
    cases h
  | t :: rest =>
    rw [operand?] at h
    split at h
    · next hkind =>
      split at h
      · next v hvalue =>
        cases h
        exact ⟨[t], rfl, .constant hkind hvalue⟩
      · cases h
    · next hkind =>
      cases h
      exact ⟨[t], rfl, .cell hkind⟩
    · next hkind =>
      split at h
      · cases h
      · next f hname =>
        split at h
        · cases h
        · split at h
          · cases h
          · split at h
            · cases h
            · next inner after hg =>
              split at h
              · cases h
              · next args ha =>
                have := Group.spread_lt_of_take hg ha
                split at h
                · cases h
                · next es hes =>
                  cases h
                  obtain ⟨first, last, hopens, hcloses, hrest⟩ := Group.eq_of_take hg
                  refine ⟨t :: first :: (inner ++ [last]), by simp [hrest], ?_⟩
                  refine .call hkind hname hopens ?_ hcloses
                  rcases Group.joined_of_arguments ha with ⟨hinner, hargs⟩ | hjoined
                  · subst hinner hargs
                    rw [readAll] at hes
                    cases hes
                    exact .none
                  · exact .some (derives_of_readAll hes hjoined)
    · next hkind =>
      split at h
      · cases h
      · split at h
        · cases h
        · split at h
          · cases h
          · next inner after hg =>
            split at h
            · cases h
            · have : inner.length < rest.length + 1 := Group.length_lt_of_take hg
              split at h
              · cases h
              · next e' he =>
                cases h
                obtain ⟨first, last, hopens, hcloses, hts⟩ := Group.eq_of_take hg
                obtain ⟨left, items, hrun, htree⟩ := derives_of_read he
                cases htree
                exact ⟨first :: (inner ++ [last]), by simp [hts], .group hopens hrun hcloses⟩
    · cases h
termination_by 2 * ts.length

/-- What is read as arguments are arguments. -/
theorem derives_of_readAll {limit depth : Nat} {args : List (List Token)} {es : List Expr}
    (h : readAll limit depth args = .ok es) {inner : List Token}
    (hjoined : Group.Joined inner args) : Grammar.Several inner es := by
  match args with
  | [] => cases hjoined
  | arg :: others =>
    have := Group.spread_cons arg others
    rw [readAll] at h
    split at h
    · cases h
    · next e he =>
      obtain ⟨left, items, hrun, htree⟩ := derives_of_read he
      cases htree
      split at h
      · cases h
      · next es' hes =>
        cases h
        cases hjoined with
        | last =>
          rw [readAll] at hes
          cases hes
          exact .last hrun
        | cons _ hseparates hrest => exact .cons hrun hseparates (derives_of_readAll hes hrest)
termination_by 2 * Group.spread args

end

end Run

/-- A tree that is read from tokens derives from the grammar. -/
theorem Expr.derives_of_ofTokens {tokens : List Token} {limit : Nat} {e : Expr}
    (h : ofTokens tokens limit = .ok e) :
    ∃ first items, Grammar.Run tokens first items ∧ e = first.graftAll items := by
  rw [ofTokens] at h
  split at h
  · cases h
  · exact Run.derives_of_read h

end Spreadsheet
