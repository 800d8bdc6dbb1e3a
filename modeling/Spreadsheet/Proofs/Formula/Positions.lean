import Spreadsheet.Proofs.Formula.Front

/-!
# Positions in a formula

The tokens of a formula know where they begin, and the errors of reading say where they lie. That is
all that positions are for: tokens that stand elsewhere make the same tree, or fail with the same
error but for the position that it names. So blanks before a formula do not change how it is read.

## Main results

* `Run.read_map_unplaced`: positions of tokens show in errors only.
* `Scan.unplaced_onward`: where a text begins, and what blanks stand before it, shows in positions
  only.
* `Expr.ofFormula_unplaced`: two formula texts that differ in blanks before them are read alike.
-/

namespace Spreadsheet

/-! ## Results with other errors -/

section MapError

variable {α β ε ε' ε'' : Type} (f : ε → ε')

@[simp] theorem mapError_ok (a : α) : (Except.ok a).mapError f = .ok a := rfl

@[simp] theorem mapError_error (e : ε) :
    (Except.error e : Except ε α).mapError f = .error (f e) := rfl

theorem mapError_eq_ok {r : Except ε α} {a : α} : r.mapError f = .ok a ↔ r = .ok a := by
  cases r <;> simp

theorem mapError_map (r : Except ε α) (g : α → β) :
    (r.map g).mapError f = (r.mapError f).map g := by
  cases r <;> rfl

/-- Results that agree up to what `f` keeps of an error agree up to whatever that determines. -/
theorem mapError_eq_of_mapError_eq {f : ε → ε'} {g : ε → ε''} {r r' : Except ε α}
    (h : r.mapError f = r'.mapError f) (hless : ∀ e e', f e = f e' → g e = g e') :
    r.mapError g = r'.mapError g := by
  cases r with
  | error e =>
    cases r' with
    | error e' => exact congrArg Except.error (hless e e' (Except.error.inj h))
    | ok a' => cases h
  | ok a =>
    cases r' with
    | error e' => cases h
    | ok a' => exact congrArg Except.ok (Except.ok.inj h)

end MapError

/-! ## Errors and tokens without positions -/

/-- A fault as it is at the beginning of a text. -/
def ParseFault.unplaced : ParseFault → ParseFault
  | .unexpected text _ => .unexpected text 0
  | .noLeftOperand text _ => .noLeftOperand text 0
  | .bareSign sign _ => .bareSign sign 0
  | .bareFunction f _ => .bareFunction f 0
  | .emptyGroup _ => .emptyGroup 0
  | .tooDeep text _ limit => .tooDeep text 0 limit
  | .noGroup text _ => .noGroup text 0
  | .unclosed _ => .unclosed 0
  | .unopened _ => .unopened 0
  | .noArgumentBefore _ => .noArgumentBefore 0
  | .noArgumentAfter _ => .noArgumentAfter 0
  | fault => fault

/-- An error as it is at the beginning of a text. -/
def FormulaError.unplaced : FormulaError → FormulaError
  | .lex _ fragment => .lex 0 fragment
  | .parse fault => .parse fault.unplaced
  | e => e

namespace Token

/-- A token at the beginning of a text. -/
def unplaced (t : Token) : Token :=
  { t with position := 0 }

@[simp] theorem kind_unplaced (t : Token) : t.unplaced.kind = t.kind := rfl

@[simp] theorem text_unplaced (t : Token) : t.unplaced.text = t.text := rfl

@[simp] theorem value_unplaced (t : Token) : t.unplaced.value = t.value := rfl

@[simp] theorem opens_unplaced (t : Token) : t.unplaced.opens = t.opens := rfl

@[simp] theorem closes_unplaced (t : Token) : t.unplaced.closes = t.closes := rfl

@[simp] theorem separates_unplaced (t : Token) : t.unplaced.separates = t.separates := rfl

end Token

/-! ## Groups and arguments -/

namespace Group

theorem map_unplaced_cons (t : Token) (r : Option (List Token × Token × List Token)) :
    (r.map fun (run, u, behind) =>
        (run.map Token.unplaced, u.unplaced, behind.map Token.unplaced)).map
        (fun (run, r) => (t.unplaced :: run, r)) =
      (r.map fun (run, r) => (t :: run, r)).map fun (run, u, behind) =>
        (run.map Token.unplaced, u.unplaced, behind.map Token.unplaced) := by
  cases r <;> rfl

theorem enclosed?_map_unplaced (depth : Nat) (ts : List Token) :
    enclosed? depth (ts.map Token.unplaced) = (enclosed? depth ts).map fun (run, t, behind) =>
      (run.map Token.unplaced, t.unplaced, behind.map Token.unplaced) := by
  induction ts generalizing depth with
  | nil => rfl
  | cons t rest ih =>
    rw [List.map_cons, enclosed?.eq_def, enclosed?.eq_def]
    dsimp only
    rw [Token.opens_unplaced, Token.closes_unplaced]
    split
    · rw [ih, map_unplaced_cons]
    · split
      · cases depth with
        | zero => rfl
        | succ depth =>
          dsimp only
          rw [ih, map_unplaced_cons]
      · rw [ih, map_unplaced_cons]

theorem take_map_unplaced (ts : List Token) :
    take (ts.map Token.unplaced) = ((take ts).mapError ParseFault.unplaced).map fun p =>
      (p.1.map Token.unplaced, p.2.map Token.unplaced) := by
  cases ts with
  | nil => rfl
  | cons t rest =>
    rw [List.map_cons, take, take, Token.opens_unplaced, enclosed?_map_unplaced]
    split
    · rfl
    · cases enclosed? 0 rest <;> rfl

theorem splitFrom_map_unplaced (depth : Nat) (current ts : List Token) :
    splitFrom depth (current.map Token.unplaced) (ts.map Token.unplaced) =
      ((splitFrom depth current ts).mapError ParseFault.unplaced).map
        (List.map (List.map Token.unplaced)) := by
  induction ts generalizing depth current with
  | nil =>
    rw [List.map_nil, splitFrom, splitFrom, ← List.map_reverse]
    split <;> rfl
  | cons t rest ih =>
    rw [List.map_cons, splitFrom.eq_def, splitFrom.eq_def]
    dsimp only
    rw [Token.opens_unplaced, Token.closes_unplaced, Token.separates_unplaced, List.isEmpty_map,
      List.isEmpty_map, ← List.map_reverse]
    split
    · exact ih (depth + 1) (t :: current)
    · split
      · cases depth with
        | zero => rfl
        | succ depth => exact ih depth (t :: current)
      · split
        · split
          · rfl
          · split
            · rfl
            · have hrest := ih 0 []
              rw [List.map_nil] at hrest
              rw [hrest]
              cases splitFrom 0 [] rest <;> rfl
        · exact ih depth (t :: current)

theorem arguments_map_unplaced (run : List Token) :
    arguments (run.map Token.unplaced) = ((arguments run).mapError ParseFault.unplaced).map
      (List.map (List.map Token.unplaced)) := by
  rw [arguments, arguments, List.isEmpty_map]
  split
  · rfl
  · exact splitFrom_map_unplaced 0 [] run

end Group

/-! ## Runs -/

namespace Run

theorem deeper_unplaced (limit depth : Nat) (t : Token) :
    deeper limit depth t.unplaced = (deeper limit depth t).mapError FormulaError.unplaced := by
  rw [deeper, deeper]
  split <;> rfl

theorem close_unplaced (pending : List Pending) (last : Option Expr) :
    (close pending last).mapError FormulaError.unplaced = close pending last := by
  cases last with
  | some e => rfl
  | none => cases pending <;> rfl

mutual

/-- Positions of tokens show in errors only. -/
theorem read_map_unplaced (limit depth : Nat) (pending : List Pending) (last : Option Expr)
    (ts : List Token) : read limit depth pending last (ts.map Token.unplaced) =
      (read limit depth pending last ts).mapError FormulaError.unplaced := by
  match ts with
  | [] => rw [List.map_nil, read, close_unplaced]
  | t :: rest =>
    have hfirst := front?_map_unplaced limit depth (t :: rest)
    rw [List.map_cons] at hfirst ⊢
    rw [read_cons, read_cons, hfirst]
    rcases hfront : front? limit depth (t :: rest) with err | _ | ⟨e, behind⟩
    · rfl
    · dsimp only [mapError_ok, Except.map, Option.map]
      rw [Token.kind_unplaced, Token.text_unplaced]
      split
      · rfl
      · cases last with
        | none =>
          dsimp only
          cases Operator.signOfSymbol? t.text with
          | none => rfl
          | some sign =>
            dsimp only
            rw [front?_map_unplaced limit depth rest]
            rcases hoperand : front? limit depth rest with err | _ | ⟨e, behind⟩
            · rfl
            · rfl
            · have := length_lt_of_front? hoperand
              exact read_map_unplaced limit depth pending _ behind
        | some left =>
          dsimp only
          split
          · exact read_map_unplaced limit depth pending _ rest
          · cases Operator.ofSymbol? t.text with
            | none => rfl
            | some op => exact read_map_unplaced limit depth _ none rest
    · have : behind.length < rest.length + 1 := length_lt_of_front? hfront
      dsimp only [mapError_ok, Except.map, Option.map]
      split
      · rfl
      · exact read_map_unplaced limit depth pending (some e) behind
termination_by 2 * ts.length + 1

theorem front?_map_unplaced (limit depth : Nat) (ts : List Token) :
    front? limit depth (ts.map Token.unplaced) =
      ((front? limit depth ts).mapError FormulaError.unplaced).map
        (Option.map fun p => (p.1, p.2.map Token.unplaced)) := by
  match ts with
  | [] =>
    rw [List.map_nil, front?_nil]
    rfl
  | t :: rest =>
    rw [List.map_cons]
    cases hkind : t.kind with
    | constant =>
      rw [front?_constant hkind, front?_constant (t := t.unplaced) hkind, Token.value_unplaced]
      cases t.value <;> rfl
    | cell =>
      rw [front?_cell hkind, front?_cell (t := t.unplaced) hkind]
      rfl
    | operator =>
      rw [front?_operator hkind, front?_operator (t := t.unplaced) hkind]
      rfl
    | function =>
      rw [front?_function hkind, front?_function (t := t.unplaced) hkind, Token.text_unplaced,
        List.head?_map, deeper_unplaced, Group.take_map_unplaced]
      cases Builtin.ofName? t.text with
      | none => rfl
      | some f =>
        have hopens : (rest.head?.map Token.unplaced).any Token.opens =
            rest.head?.any Token.opens := by
          cases rest.head? <;> rfl
        dsimp only
        rw [hopens]
        split
        · rfl
        · cases deeper limit depth t with
          | error err => rfl
          | ok inside =>
            cases htake : Group.take rest with
            | error err => rfl
            | ok p =>
              obtain ⟨inner, behind⟩ := p
              dsimp only [mapError_ok, Except.map, bind, Except.bind]
              rw [Group.arguments_map_unplaced]
              cases hargs : Group.arguments inner with
              | error err => rfl
              | ok args =>
                have : Group.spread args < rest.length + 1 :=
                  Nat.lt_succ_of_lt (Group.spread_lt_of_take htake hargs)
                dsimp only [mapError_ok, Except.map]
                rw [readAll_map_unplaced limit inside args]
                cases readAll limit inside args <;> rfl
    | symbol =>
      rw [front?_symbol hkind, front?_symbol (t := t.unplaced) hkind, Token.opens_unplaced,
        deeper_unplaced, ← List.map_cons, Group.take_map_unplaced]
      split
      · rfl
      · cases deeper limit depth t with
        | error err => rfl
        | ok inside =>
          cases htake : Group.take (t :: rest) with
          | error err => rfl
          | ok p =>
            obtain ⟨inner, behind⟩ := p
            have : inner.length < rest.length + 1 := Group.length_lt_of_take htake
            dsimp only [mapError_ok, Except.map, bind, Except.bind]
            rw [List.isEmpty_map]
            split
            · rfl
            · rw [read_map_unplaced limit inside [] none inner]
              cases read limit inside [] none inner <;> rfl
termination_by 2 * ts.length

theorem readAll_map_unplaced (limit depth : Nat) (args : List (List Token)) :
    readAll limit depth (args.map (List.map Token.unplaced)) =
      (readAll limit depth args).mapError FormulaError.unplaced := by
  match args with
  | [] =>
    rw [List.map_nil, readAll]
    rfl
  | arg :: others =>
    have := Group.spread_cons arg others
    rw [List.map_cons, readAll, readAll, read_map_unplaced limit depth [] none arg]
    cases read limit depth [] none arg with
    | error e => rfl
    | ok e =>
      dsimp only [mapError_ok]
      rw [readAll_map_unplaced limit depth others]
      cases readAll limit depth others <;> rfl
termination_by 2 * Group.spread args

end

end Run

/-! ## Texts -/

/-- A fault as it is at the beginning of a text. -/
def Unreadable.unplaced (u : Unreadable) : Unreadable :=
  { u with position := 0 }

namespace Scan

/-- The tokens and the fault of a scan as they are at the beginning of a text. -/
def unplaced (s : Scan) : Scan where
  tokens := s.tokens.map Token.unplaced
  fault := s.fault.map Unreadable.unplaced

/-- Behind a lexeme, less of the text is left. -/
theorem length_drop_lt {cs : List Char} {l : Lexeme}
    (hne : ¬ (Text.skipBlanks cs).isEmpty = true)
    (hl : Lexeme.ofChars? (Text.skipBlanks cs) = some l) :
    ((Text.skipBlanks cs).drop l.chars.length).length < cs.length := by
  have hlexeme : 0 < l.chars.length := List.length_pos_iff.2 (Lexeme.ofChars?_ne_nil hl)
  have hskip : (Text.skipBlanks cs).length ≤ cs.length := (List.dropWhile_suffix _).length_le
  have hrest : 0 < (Text.skipBlanks cs).length := List.length_pos_iff.2 (by simpa using hne)
  rw [List.length_drop]
  omega

/-- Where a text begins, and what blanks stand before it, shows in positions only. -/
theorem unplaced_onward (position position' : Nat) {cs cs' : List Char}
    (h : Text.skipBlanks cs' = Text.skipBlanks cs) :
    (onward position' cs').unplaced = (onward position cs).unplaced := by
  rw [onward, onward]
  dsimp only
  rw [h]
  split
  · rfl
  · next hne =>
    cases hl : Lexeme.ofChars? (Text.skipBlanks cs) with
    | none => rfl
    | some l =>
      have hrest : ∀ next next',
          (onward next' ((Text.skipBlanks cs).drop l.chars.length)).unplaced =
          (onward next ((Text.skipBlanks cs).drop l.chars.length)).unplaced :=
        fun next next' => unplaced_onward next next' rfl
      exact congrArg (fun s : Scan => Scan.mk
        (⟨l.kind, String.ofList l.chars, l.value, 0⟩ :: s.tokens) s.fault) (hrest _ _)
termination_by cs.length
decreasing_by exact length_drop_lt ‹_› hl

end Scan

/-- What a text is read as without positions, it is tokenized as but for positions. -/
theorem exists_tokenize_of_unplaced {text : String} {ts : List Token}
    (h : (Scan.ofText text).unplaced = ⟨ts, none⟩) :
    ∃ tokens, tokenize text = .ok tokens ∧ tokens.map Token.unplaced = ts := by
  have hfault : (Scan.ofText text).fault = none :=
    Option.map_eq_none_iff.1 (congrArg Scan.fault h)
  refine ⟨_, ?_, congrArg Scan.tokens h⟩
  rw [tokenize, hfault]

/-- Texts that differ in blanks before them have the same tokens, or the same fault, but for
positions. -/
theorem tokenize_unplaced {text text' : String}
    (h : Text.skipBlanks text'.toList = Text.skipBlanks text.toList) :
    ((tokenize text').mapError FormulaError.unplaced).map (List.map Token.unplaced) =
      ((tokenize text).mapError FormulaError.unplaced).map (List.map Token.unplaced) := by
  have hscan : (Scan.ofText text').unplaced = (Scan.ofText text).unplaced :=
    Scan.unplaced_onward 0 0 h
  have htokens := congrArg Scan.tokens hscan
  have hfault := congrArg Scan.fault hscan
  rw [tokenize, tokenize]
  cases hu : (Scan.ofText text).fault with
  | none =>
    cases hu' : (Scan.ofText text').fault with
    | none => exact congrArg Except.ok htokens
    | some u' => simp [Scan.unplaced, hu, hu'] at hfault
  | some u =>
    cases hu' : (Scan.ofText text').fault with
    | none => simp [Scan.unplaced, hu, hu'] at hfault
    | some u' =>
      simp [Scan.unplaced, Unreadable.unplaced, hu, hu'] at hfault
      simp [FormulaError.unplaced, hfault]

namespace Expr

theorem ofTokens_map_unplaced (tokens : List Token) (limit : Nat) :
    ofTokens (tokens.map Token.unplaced) limit =
      (ofTokens tokens limit).mapError FormulaError.unplaced := by
  rw [ofTokens, ofTokens, List.isEmpty_map]
  split
  · rfl
  · exact Run.read_map_unplaced limit 0 [] none tokens

/-- Tokens that are the same but for positions are read alike. -/
theorem ofTokens_unplaced {tokens tokens' : List Token} {limit : Nat}
    (h : tokens'.map Token.unplaced = tokens.map Token.unplaced) :
    (ofTokens tokens' limit).mapError FormulaError.unplaced =
      (ofTokens tokens limit).mapError FormulaError.unplaced := by
  rw [← ofTokens_map_unplaced, h, ofTokens_map_unplaced]

/-- Formula texts whose bodies differ in blanks before them are read alike. -/
theorem ofFormula_unplaced {text text' : String} {limit : Nat}
    (h : Text.skipBlanks (formulaBody text').toList = Text.skipBlanks (formulaBody text).toList) :
    (ofFormula text' limit).mapError FormulaError.unplaced =
      (ofFormula text limit).mapError FormulaError.unplaced := by
  have htokens := tokenize_unplaced h
  rw [ofFormula, ofFormula]
  cases hread : tokenize (formulaBody text) with
  | error e =>
    cases hread' : tokenize (formulaBody text') with
    | error e' =>
      rw [hread, hread'] at htokens
      exact congrArg Except.error (Except.error.inj htokens)
    | ok tokens' =>
      rw [hread, hread'] at htokens
      cases htokens
  | ok tokens =>
    cases hread' : tokenize (formulaBody text') with
    | error e' =>
      rw [hread, hread'] at htokens
      cases htokens
    | ok tokens' =>
      rw [hread, hread'] at htokens
      exact ofTokens_unplaced (Except.ok.inj htokens)

end Expr

end Spreadsheet
