import Spreadsheet.Formula.Run

/-!
# Reading a run, case by case

What stands at the front of a run is decided by its first token. Here are the equations by which a
run is read, without the proofs that the recursion needs to end.

## Main results

* `read_cons`: a run begins with an operand or with an operator.
* `front?_function`, `front?_symbol`: calls and groups as operands.
* `exists_of_front?_function`, `exists_of_front?_symbol`: what stands in them when they are read.
-/

namespace Spreadsheet.Run

/-- The operand at the front of a run and the tokens behind it, without the proof that these are
fewer. -/
def front? (limit depth : Nat) (ts : List Token) :
    Except FormulaError (Option (Expr × List Token)) :=
  (operand? limit depth ts).map (Option.map fun p => (p.1, p.2.1))

variable {limit depth : Nat} {t : Token} {rest : List Token}

theorem length_lt_of_front? {ts behind : List Token} {e : Expr}
    (h : front? limit depth ts = .ok (some (e, behind))) : behind.length < ts.length := by
  rw [front?] at h
  rcases hoperand : operand? limit depth ts with err | _ | ⟨first, rest, hrest⟩
  · rw [hoperand] at h
    cases h
  · rw [hoperand] at h
    cases h
  · rw [hoperand] at h
    cases h
    exact hrest

/-! ## One equation for each kind of token -/

theorem front?_nil : front? limit depth [] = .ok none := by
  rw [front?, operand?]
  rfl

theorem front?_constant (h : t.kind = .constant) : front? limit depth (t :: rest) =
    match t.value with
    | some v => .ok (some (.constant v, rest))
    | none => .error (unexpected t) := by
  rw [front?, operand?]
  simp only [h]
  cases t.value <;> rfl

theorem front?_cell (h : t.kind = .cell) :
    front? limit depth (t :: rest) = .ok (some (.reference t.text, rest)) := by
  rw [front?, operand?]
  simp only [h]
  rfl

theorem front?_operator (h : t.kind = .operator) : front? limit depth (t :: rest) = .ok none := by
  rw [front?, operand?]
  simp only [h]
  rfl

theorem front?_symbol (h : t.kind = .symbol) : front? limit depth (t :: rest) =
    if !t.opens then .ok none else do
      let inside ← deeper limit depth t
      let (inner, behind) ← (Group.take (t :: rest)).mapError .parse
      if inner.isEmpty then .error (.parse (.emptyGroup t.position))
      else return some (.group (← read limit inside [] none inner), behind) := by
  rw [front?, operand?]
  simp only [h]
  cases t.opens with
  | false => rfl
  | true =>
    cases deeper limit depth t with
    | error e => rfl
    | ok inside =>
      rw [if_neg (by decide), if_neg (by decide)]
      dsimp only
      split
      · next e htake =>
        conv => rhs; rw [htake]
        rfl
      · next inner behind htake =>
        conv => rhs; rw [htake]
        change _ = if inner.isEmpty then _ else _
        split
        · rfl
        · cases read limit inside [] none inner <;> rfl

theorem front?_function (h : t.kind = .function) : front? limit depth (t :: rest) =
    match Builtin.ofName? t.text with
    | none => .error (.unknownFunction t.text)
    | some f =>
      if !rest.head?.any Token.opens then .error (.parse (.bareFunction f t.position))
      else do
        let inside ← deeper limit depth t
        let (inner, behind) ← (Group.take rest).mapError .parse
        let args ← (Group.arguments inner).mapError .parse
        return some (.apply (.builtin f) (← readAll limit inside args), behind) := by
  rw [front?, operand?]
  simp only [h]
  cases Builtin.ofName? t.text with
  | none => rfl
  | some f =>
    dsimp only
    split
    · rfl
    · cases deeper limit depth t with
      | error e => rfl
      | ok inside =>
        dsimp only
        split
        · next e htake =>
          conv => rhs; rw [htake]
          rfl
        · next inner behind htake =>
          conv => rhs; rw [htake]
          split
          · next e hargs =>
            change _ = (Group.arguments inner).mapError FormulaError.parse >>= _
            conv => rhs; rw [hargs]
            rfl
          · next args hargs =>
            change _ = (Group.arguments inner).mapError FormulaError.parse >>= _
            conv => rhs; rw [hargs]
            change _ = readAll limit inside args >>= _
            cases readAll limit inside args <;> rfl

/-- A run is read operand by operand and operator by operator. -/
theorem read_cons {pending : List Pending} {last : Option Expr} :
    read limit depth pending last (t :: rest) =
      match front? limit depth (t :: rest) with
      | .error e => .error e
      | .ok (some (e, behind)) =>
        if last.isSome then .error (unexpected t) else read limit depth pending (some e) behind
      | .ok none =>
        if t.kind ≠ .operator then .error (unexpected t)
        else match last with
          | none =>
            match Operator.signOfSymbol? t.text with
            | none => .error (.parse (.noLeftOperand t.text t.position))
            | some sign =>
              match front? limit depth rest with
              | .error e => .error e
              | .ok none => .error (.parse (.bareSign sign t.position))
              | .ok (some (e, behind)) =>
                read limit depth pending (some (.operator sign [e])) behind
          | some left =>
            if t.text = "%" then read limit depth pending (some (.operator .percent [left])) rest
            else match Operator.ofSymbol? t.text with
              | none => .error (unexpected t)
              | some op => read limit depth (⟨left, op⟩ :: pending) none rest := by
  rw [read.eq_def]
  dsimp only
  rw [front?, front?]
  rcases operand? limit depth (t :: rest) with e | _ | ⟨e, behind, hb⟩
  · rfl
  · dsimp only [Except.map, Option.map]
    split
    · rfl
    · cases last with
      | some left => rfl
      | none =>
        dsimp only
        cases Operator.signOfSymbol? t.text with
        | none => rfl
        | some sign =>
          rcases operand? limit depth rest with e | _ | ⟨e, behind, hb⟩ <;> rfl
  · rfl

/-! ## What calls and groups are read from -/

theorem deeper_eq_ok {inside : Nat} (h : deeper limit depth t = .ok inside) :
    depth < limit ∧ inside = depth + 1 := by
  rw [deeper] at h
  split at h
  · next hlt =>
    cases h
    exact ⟨hlt, rfl⟩
  · cases h

/-- What a call is read from: its name, a group with the arguments in it, and these, a level
deeper. -/
theorem exists_of_front?_function {e : Expr} {behind : List Token} (hkind : t.kind = .function)
    (h : front? limit depth (t :: rest) = .ok (some (e, behind))) :
    ∃ f inner args es, Builtin.ofName? t.text = some f ∧ depth < limit ∧
      Group.take rest = .ok (inner, behind) ∧ Group.arguments inner = .ok args ∧
      readAll limit (depth + 1) args = .ok es ∧ e = .apply (.builtin f) es := by
  rw [front?_function hkind] at h
  split at h
  · cases h
  · next f hname =>
    split at h
    · cases h
    · cases hinside : deeper limit depth t with
      | error err => rw [hinside] at h; cases h
      | ok inside =>
        obtain ⟨hdepth, rfl⟩ := deeper_eq_ok hinside
        cases htake : Group.take rest with
        | error err => rw [hinside, htake] at h; cases h
        | ok p =>
          obtain ⟨inner, after⟩ := p
          rw [hinside, htake] at h
          change (Group.arguments inner).mapError FormulaError.parse >>= _ = _ at h
          cases hargs : Group.arguments inner with
          | error err => rw [hargs] at h; cases h
          | ok args =>
            rw [hargs] at h
            change readAll limit (depth + 1) args >>= _ = _ at h
            cases hread : readAll limit (depth + 1) args with
            | error err => rw [hread] at h; cases h
            | ok es =>
              rw [hread] at h
              cases h
              exact ⟨f, inner, args, es, hname, hdepth, rfl, hargs, hread, rfl⟩

/-- What a group is read from: a run of tokens, a level deeper. -/
theorem exists_of_front?_symbol {e : Expr} {behind : List Token} (hkind : t.kind = .symbol)
    (h : front? limit depth (t :: rest) = .ok (some (e, behind))) :
    ∃ inner e', depth < limit ∧ Group.take (t :: rest) = .ok (inner, behind) ∧
      read limit (depth + 1) [] none inner = .ok e' ∧ e = .group e' := by
  rw [front?_symbol hkind] at h
  split at h
  · cases h
  · cases hinside : deeper limit depth t with
    | error err => rw [hinside] at h; cases h
    | ok inside =>
      obtain ⟨hdepth, rfl⟩ := deeper_eq_ok hinside
      cases htake : Group.take (t :: rest) with
      | error err => rw [hinside, htake] at h; cases h
      | ok p =>
        obtain ⟨inner, after⟩ := p
        rw [hinside, htake] at h
        change (if inner.isEmpty then _ else read limit (depth + 1) [] none inner >>= _) = _ at h
        split at h
        · cases h
        · cases hread : read limit (depth + 1) [] none inner with
          | error err => rw [hread] at h; cases h
          | ok e' =>
            rw [hread] at h
            cases h
            exact ⟨inner, e', hdepth, rfl, hread, rfl⟩

end Spreadsheet.Run
