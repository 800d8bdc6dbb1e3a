import Spreadsheet.Proofs.FailsOnly
import Spreadsheet.Proofs.Formula.Front
import Spreadsheet.Proofs.Formula.Grammar
import Spreadsheet.Proofs.Formula.Lexemes

/-!
# How reading a formula fails

Tokens that make no expression are at fault in their order, or one of them calls a function that
does not exist. The tokens of a text only call functions that exist, so a formula text that cannot
be read is no list of tokens, or its tokens make no expression.

## Main results

* `Expr.failsOnly_ofTokens`: which function does not exist, if that is the error.
* `Expr.failsOnly_ofFormula`: a text fails to be read only with errors of the first two stages.
* `Expr.ofFormula_outcome`: with an error of the first stage if and only if it is no list of tokens.
-/

namespace Spreadsheet

/-- The errors of making an expression of tokens. -/
inductive FormulaError.OfTokens (tokens : List Token) : FormulaError → Prop
  | parse (fault : ParseFault) : OfTokens tokens (.parse fault)
  | unknownFunction {t : Token} (ht : t ∈ tokens) (hkind : t.kind = .function)
    (hname : Builtin.ofName? t.text = none) : OfTokens tokens (.unknownFunction t.text)

/-- The errors of reading a text. -/
inductive FormulaError.OfReading : FormulaError → Prop
  | lex (position : Nat) (fragment : String) : OfReading (.lex position fragment)
  | parse (fault : ParseFault) : OfReading (.parse fault)

open FormulaError (OfTokens OfReading)

/-! ## Parts of tokens -/

theorem Group.subset_of_take {ts run behind : List Token} (h : take ts = .ok (run, behind)) :
    run ⊆ ts := by
  obtain ⟨first, last, _, _, rfl⟩ := eq_of_take h
  exact List.subset_cons_of_subset _ (List.subset_append_left _ _)

theorem Group.Joined.subset {ts arg : List Token} {args : List (List Token)} (h : Joined ts args)
    (harg : arg ∈ args) : arg ⊆ ts := by
  induction h with
  | last other =>
    rw [List.mem_singleton.1 harg]
    exact List.Subset.refl _
  | cons other _ _ ih =>
    rcases List.mem_cons.1 harg with rfl | hothers
    · exact List.subset_append_left _ _
    · exact List.subset_append_of_subset_right _ (List.subset_cons_of_subset _ (ih hothers))

theorem Group.subset_of_arguments {run arg : List Token} {args : List (List Token)}
    (h : arguments run = .ok args) (harg : arg ∈ args) : arg ⊆ run := by
  rcases joined_of_arguments h with ⟨_, rfl⟩ | hjoined
  · cases harg
  · exact hjoined.subset harg

theorem Run.subset_of_operand? {limit depth : Nat} {ts behind : List Token} {e : Expr}
    {hb : behind.length < ts.length}
    (h : operand? limit depth ts = .ok (some (e, ⟨behind, hb⟩))) : behind ⊆ ts := by
  obtain ⟨front, hts, _⟩ := derives_of_operand? h
  rw [hts]
  exact List.subset_append_right _ _

/-! ## Tokens -/

namespace Run

variable {tokens : List Token}

theorem failsOnly_close (pending : List Pending) (last : Option Expr) :
    FailsOnly (OfTokens tokens) (close pending last) := by
  unfold close
  split
  · exact failsOnly_ok _
  · split
    · exact failsOnly_error.2 (.parse _)
    · exact failsOnly_error.2 (.parse _)

theorem failsOnly_deeper (limit depth : Nat) (t : Token) :
    FailsOnly (OfTokens tokens) (deeper limit depth t) := by
  rw [deeper]
  split
  · exact failsOnly_ok _
  · exact failsOnly_error.2 (.parse _)

mutual

theorem failsOnly_read (limit depth : Nat) (pending : List Pending) (last : Option Expr)
    {ts : List Token} (hts : ts ⊆ tokens) :
    FailsOnly (OfTokens tokens) (read limit depth pending last ts) := by
  match ts with
  | [] =>
    rw [read]
    exact failsOnly_close pending last
  | t :: rest =>
    have hrest : rest ⊆ tokens := List.Subset.trans (List.subset_cons_self t rest) hts
    unfold read
    dsimp only
    split
    · next e he => exact failsOnly_error.2 (failsOnly_operand? limit depth hts e he)
    · next e behind hb hoperand =>
      have : behind.length < rest.length + 1 := hb
      have hbehind : behind ⊆ tokens := List.Subset.trans (subset_of_operand? hoperand) hts
      split
      · exact failsOnly_error.2 (.parse _)
      · exact failsOnly_read limit depth pending (some e) hbehind
    · split
      · exact failsOnly_error.2 (.parse _)
      · split
        · split
          · exact failsOnly_error.2 (.parse _)
          · split
            · next e he => exact failsOnly_error.2 (failsOnly_operand? limit depth hrest e he)
            · exact failsOnly_error.2 (.parse _)
            · next e behind hb hoperand =>
              exact failsOnly_read limit depth pending _
                (List.Subset.trans (subset_of_operand? hoperand) hrest)
        · split
          · exact failsOnly_read limit depth pending _ hrest
          · split
            · exact failsOnly_error.2 (.parse _)
            · exact failsOnly_read limit depth _ none hrest
termination_by 2 * ts.length + 1

theorem failsOnly_operand? (limit depth : Nat) {ts : List Token} (hts : ts ⊆ tokens) :
    FailsOnly (OfTokens tokens) (operand? limit depth ts) := by
  match ts with
  | [] =>
    rw [operand?]
    exact failsOnly_ok _
  | t :: rest =>
    have hrest : rest ⊆ tokens := List.Subset.trans (List.subset_cons_self t rest) hts
    rw [operand?]
    split
    · split
      · exact failsOnly_ok _
      · exact failsOnly_error.2 (.parse _)
    · exact failsOnly_ok _
    · next hkind =>
      split
      · next hname =>
        exact failsOnly_error.2 (.unknownFunction (hts List.mem_cons_self) hkind hname)
      · split
        · exact failsOnly_error.2 (.parse _)
        · split
          · next e he => exact failsOnly_error.2 (failsOnly_deeper limit depth t e he)
          · split
            · exact failsOnly_error.2 (.parse _)
            · next inner behind hg =>
              split
              · exact failsOnly_error.2 (.parse _)
              · next args ha =>
                have := Group.spread_lt_of_take hg ha
                have hargs : ∀ arg ∈ args, arg ⊆ tokens := fun arg harg =>
                  List.Subset.trans (Group.subset_of_arguments ha harg)
                    (List.Subset.trans (Group.subset_of_take hg) hrest)
                split
                · next e he => exact failsOnly_error.2 (failsOnly_readAll limit _ hargs e he)
                · exact failsOnly_ok _
    · split
      · exact failsOnly_ok _
      · split
        · next e he => exact failsOnly_error.2 (failsOnly_deeper limit depth t e he)
        · split
          · exact failsOnly_error.2 (.parse _)
          · next inner behind hg =>
            split
            · exact failsOnly_error.2 (.parse _)
            · have : inner.length < rest.length + 1 := Group.length_lt_of_take hg
              have hinner : inner ⊆ tokens := List.Subset.trans (Group.subset_of_take hg) hts
              split
              · next e he => exact failsOnly_error.2 (failsOnly_read limit _ [] none hinner e he)
              · exact failsOnly_ok _
    · exact failsOnly_ok _
termination_by 2 * ts.length

theorem failsOnly_readAll (limit depth : Nat) {args : List (List Token)}
    (hargs : ∀ arg ∈ args, arg ⊆ tokens) :
    FailsOnly (OfTokens tokens) (readAll limit depth args) := by
  match args with
  | [] =>
    rw [readAll]
    exact failsOnly_ok _
  | arg :: others =>
    have := Group.spread_cons arg others
    obtain ⟨harg, hothers⟩ := List.forall_mem_cons.1 hargs
    rw [readAll]
    split
    · next e he => exact failsOnly_error.2 (failsOnly_read limit depth [] none harg e he)
    · split
      · next e he => exact failsOnly_error.2 (failsOnly_readAll limit depth hothers e he)
      · exact failsOnly_ok _
termination_by 2 * Group.spread args

end

end Run

/-- Tokens fail to make an expression by their order, or since one of them calls a function that
does not exist. -/
theorem Expr.failsOnly_ofTokens (tokens : List Token) (limit : Nat) :
    FailsOnly (OfTokens tokens) (ofTokens tokens limit) := by
  rw [ofTokens]
  split
  · exact failsOnly_error.2 (.parse _)
  · exact Run.failsOnly_read limit 0 [] none (List.Subset.refl tokens)

/-! ## Texts -/

/-- A text is no list of tokens since none begins at some place. -/
theorem exists_of_tokenize_error {text : String} {err : FormulaError}
    (h : tokenize text = .error err) : ∃ position fragment, err = .lex position fragment := by
  rw [tokenize] at h
  split at h
  · cases h
  · next u _ =>
    cases h
    exact ⟨u.position, u.fragment, rfl⟩

theorem failsOnly_tokenize (text : String) : FailsOnly OfReading (tokenize text) := by
  intro err h
  obtain ⟨position, fragment, rfl⟩ := exists_of_tokenize_error h
  exact .lex position fragment

/-- The tokens of a text call no function that does not exist: they are at fault in their order. -/
theorem FormulaError.OfTokens.exists_fault {text : String} {tokens : List Token} {e : FormulaError}
    (htokens : tokenize text = .ok tokens) (h : e.OfTokens tokens) : ∃ fault, e = .parse fault := by
  cases h with
  | parse fault => exact ⟨fault, rfl⟩
  | @unknownFunction t ht hkind hname =>
    have hproper := proper_of_tokenize htokens t ht
    simp [Token.Proper, hkind, hname] at hproper

/-- A formula text fails to be read only since it is no list of tokens or these make no
expression. -/
theorem Expr.failsOnly_ofFormula (text : String) (limit : Nat) :
    FailsOnly OfReading (ofFormula text limit) := by
  rw [ofFormula]
  cases htokens : tokenize (formulaBody text) with
  | error e => exact failsOnly_error.2 (failsOnly_tokenize _ e htokens)
  | ok tokens =>
    refine (failsOnly_ofTokens tokens limit).mono fun e he => ?_
    obtain ⟨fault, rfl⟩ := he.exists_fault htokens
    exact .parse fault

/-- A text that is no list of tokens is not read, with the error of its tokens. -/
theorem Expr.ofFormula_of_tokenize_error {text : String} {err : FormulaError} (limit : Nat)
    (h : tokenize (formulaBody text) = .error err) : ofFormula text limit = .error err := by
  rw [ofFormula, h]
  rfl

/-- A list of tokens is read, or it is at fault in its order. -/
theorem Expr.ofFormula_of_tokenize_ok {text : String} {tokens : List Token} (limit : Nat)
    (h : tokenize (formulaBody text) = .ok tokens) :
    (∃ e, ofFormula text limit = .ok e) ∨
      ∃ fault, ofFormula text limit = .error (.parse fault) := by
  have htokens : ofFormula text limit = ofTokens tokens limit := by
    rw [ofFormula, h]
    rfl
  cases hread : ofTokens tokens limit with
  | ok e => exact .inl ⟨e, htokens.trans hread⟩
  | error err =>
    obtain ⟨fault, rfl⟩ := (failsOnly_ofTokens tokens limit err hread).exists_fault h
    exact .inr ⟨fault, htokens.trans hread⟩

/-- A constant of a text has a value, and where an operand may stand, it is read as that. -/
theorem Run.exists_front?_constant {t : Token} (hproper : t.Proper) (hkind : t.kind = .constant) :
    ∃ v, t.value = some v ∧
      ∀ limit depth rest, front? limit depth (t :: rest) = .ok (some (.constant v, rest)) := by
  rw [Token.Proper, hkind] at hproper
  obtain ⟨v, hv⟩ := Option.isSome_iff_exists.1 hproper
  refine ⟨v, hv, fun limit depth rest => ?_⟩
  rw [front?_constant hkind, hv]

/-- A text is read, or it fails with an error of one of the first two stages: the error of its
tokens if it is no list of tokens, and otherwise one of their order. That a function does not exist,
or that a constant has no value, is not found in a text. -/
theorem Expr.ofFormula_outcome (text : String) (limit : Nat) :
    ((∃ e, ofFormula text limit = .ok e) ∨
        (∃ position fragment, ofFormula text limit = .error (.lex position fragment)) ∨
        ∃ fault, ofFormula text limit = .error (.parse fault)) ∧
      ((∃ position fragment, ofFormula text limit = .error (.lex position fragment)) ↔
        ∃ err, tokenize (formulaBody text) = .error err) ∧
      (∀ err, tokenize (formulaBody text) = .error err → ofFormula text limit = .error err) ∧
      (∀ name, ofFormula text limit ≠ .error (.unknownFunction name)) ∧
      ∀ tokens, tokenize (formulaBody text) = .ok tokens → ∀ t ∈ tokens,
        (t.kind = .function → ∃ f, Builtin.ofName? t.text = some f) ∧
        (t.kind = .constant → ∃ v, t.value = some v ∧ ∀ depth rest,
          Run.front? limit depth (t :: rest) = .ok (some (.constant v, rest))) := by
  have hlex : ∀ err, tokenize (formulaBody text) = .error err →
      ofFormula text limit = .error err := fun err => ofFormula_of_tokenize_error limit
  refine ⟨?_, ⟨?_, ?_⟩, hlex, ?_, fun tokens htokens t ht => ⟨fun hkind => ?_, fun hkind => ?_⟩⟩
  · cases h : ofFormula text limit with
    | ok e => exact .inl ⟨e, rfl⟩
    | error err =>
      cases failsOnly_ofFormula text limit err h with
      | lex position fragment => exact .inr (.inl ⟨position, fragment, rfl⟩)
      | parse fault => exact .inr (.inr ⟨fault, rfl⟩)
  · rintro ⟨position, fragment, h⟩
    cases htokens : tokenize (formulaBody text) with
    | error err => exact ⟨err, rfl⟩
    | ok tokens =>
      rcases ofFormula_of_tokenize_ok limit htokens with ⟨e, he⟩ | ⟨fault, hfault⟩
      · rw [he] at h
        cases h
      · rw [hfault] at h
        cases h
  · rintro ⟨err, herr⟩
    obtain ⟨position, fragment, rfl⟩ := exists_of_tokenize_error herr
    exact ⟨position, fragment, hlex _ herr⟩
  · intro name h
    cases failsOnly_ofFormula text limit _ h
  · have hproper := proper_of_tokenize htokens t ht
    rw [Token.Proper, hkind] at hproper
    exact Option.isSome_iff_exists.1 hproper
  · obtain ⟨v, hv, hfront⟩ := Run.exists_front?_constant (proper_of_tokenize htokens t ht) hkind
    exact ⟨v, hv, hfront limit⟩

/-- A semicolon begins no token; the constant of a call that is not closed is read as its value. -/
theorem ofFormula_unclosed_outcome :
    Expr.ofFormula "=SUM(1;2)" defaultNesting = .error (.lex 5 ";2)") ∧
      (∃ fault, Expr.ofFormula "=SUM(1" defaultNesting = .error (.parse fault)) ∧
      ∃ v, ∀ depth rest, Run.front? defaultNesting depth (⟨.constant, "1", some v, 4⟩ :: rest) =
        .ok (some (.constant v, rest)) := by
  obtain ⟨_, _, hlex, _, _⟩ := Expr.ofFormula_outcome "=SUM(1;2)" defaultNesting
  obtain ⟨_, _, _, _, htokens⟩ := Expr.ofFormula_outcome "=SUM(1" defaultNesting
  refine ⟨hlex _ (by with_unfolding_all rfl), ⟨.unclosed 3, by with_unfolding_all rfl⟩, ?_⟩
  have hscan : tokenize (formulaBody "=SUM(1") = .ok [⟨.function, "SUM", none, 0⟩,
      ⟨.symbol, "(", none, 3⟩, ⟨.constant, "1", some (.number 1), 4⟩] := by with_unfolding_all rfl
  obtain ⟨v, hv, hfront⟩ :=
    (htokens _ hscan ⟨.constant, "1", some (.number 1), 4⟩ (by simp)).2 rfl
  cases hv
  exact ⟨.number 1, hfront⟩

end Spreadsheet
