import Spreadsheet.Formula.Scan

/-!
# The lexemes of a text

Every token of a text comes from a lexeme that stands in it. So a token is what its kind says: a
constant has a value, a function a name that is built in, and an operator a symbol.

## Main results

* `exists_lexeme_of_tokenize`: every token of a text comes from a lexeme.
* `proper_of_tokenize`: the tokens of a text are proper.
-/

namespace Spreadsheet

/-- What a token says by its kind, it is: a constant has a value, a function a name that is built
in, and an operator a symbol that stands for one. -/
def Token.Proper (t : Token) : Prop :=
  match t.kind with
  | .constant => t.value.isSome = true
  | .function => (Builtin.ofName? t.text).isSome = true
  | .operator => (Operator.ofSymbol? t.text).isSome = true
  | _ => True

namespace Lexeme

variable {cs : List Char} {l : Lexeme}

/-- The token of a lexeme at a byte offset. -/
def token (l : Lexeme) (position : Nat) : Token :=
  ⟨l.kind, String.ofList l.chars, l.value, position⟩

/-! ### Kinds of lexemes -/

theorem kind_of_symbol? (h : symbol? cs = some l) : l.kind = .symbol ∧ l.value = none := by
  unfold symbol? at h
  grind

theorem kind_of_operator? (h : operator? cs = some l) : l.kind = .operator ∧ l.value = none := by
  unfold operator? at h
  grind

theorem kind_of_function? (h : function? cs = some l) : l.kind = .function ∧ l.value = none := by
  unfold function? at h
  grind

theorem kind_of_cell? (h : cell? cs = some l) : l.kind = .cell ∧ l.value = none := by
  unfold cell? at h
  grind

theorem kind_of_boolean? (h : boolean? cs = some l) : l.kind = .constant := by
  unfold boolean? at h
  grind [Option.map_eq_some_iff]

theorem kind_of_text? (h : text? cs = some l) : l.kind = .constant := by
  unfold text? at h
  grind

theorem kind_of_number? (h : number? cs = some l) : l.kind = .constant := by
  unfold number? at h
  grind [Option.map_eq_some_iff]

/-- What begins neither with a symbol nor with an operator is an operand. -/
theorem kind_of_no_mark (h : ofChars? cs = some l)
    (hmark : symbol? cs = none ∧ operator? cs = none) :
    l.kind ≠ .operator ∧ l.kind ≠ .symbol := by
  cases stands_of_ofChars? h with
  | symbol hl => simp [hmark.1] at hl
  | operator hl => simp [hmark.2] at hl
  | function hl => simp [kind_of_function? hl]
  | cell hl => simp [kind_of_cell? hl]
  | boolean hl => simp [kind_of_boolean? hl]
  | text hl => simp [kind_of_text? hl]
  | number hl => simp [kind_of_number? hl]

/-- A cell name is read only where no function is. -/
theorem function?_eq_none_of_cell (h : ofChars? cs = some l) (hkind : l.kind = .cell) :
    function? cs = none ∧ cell? cs = some l := by
  have htried : ofChars? cs = ([symbol?, operator?, function?].findSome? (· cs)).or
      ([cell?, boolean?, text?, number?].findSome? (· cs)) := by
    rw [← List.findSome?_append]
    rfl
  rw [htried] at h
  cases hfirst : [symbol?, operator?, function?].findSome? (· cs) with
  | some l' =>
    rw [hfirst] at h
    cases h
    obtain ⟨kind, hk, hl⟩ := List.exists_of_findSome?_eq_some hfirst
    simp only [List.mem_cons, List.not_mem_nil, or_false] at hk
    rcases hk with rfl | rfl | rfl
    · simp [kind_of_symbol? hl] at hkind
    · simp [kind_of_operator? hl] at hkind
    · simp [kind_of_function? hl] at hkind
  | none =>
    rw [hfirst, Option.none_or] at h
    refine ⟨List.findSome?_eq_none_iff.1 hfirst function? (by simp), ?_⟩
    obtain ⟨kind, hk, hl⟩ := List.exists_of_findSome?_eq_some h
    simp only [List.mem_cons, List.not_mem_nil, or_false] at hk
    rcases hk with rfl | rfl | rfl | rfl
    · exact hl
    · simp [kind_of_boolean? hl] at hkind
    · simp [kind_of_text? hl] at hkind
    · simp [kind_of_number? hl] at hkind

/-! ### What a lexeme says by its kind -/

theorem proper_of_operatorChar {c : Char} (h : isOperatorChar c = true) (position : Nat) :
    (token ⟨.operator, [c], none⟩ position).Proper := by
  simp only [isOperatorChar, List.contains_eq_mem, List.mem_cons, List.not_mem_nil, or_false,
    decide_eq_true_eq] at h
  rcases h with rfl | rfl | rfl | rfl | rfl | rfl | rfl | rfl | rfl | rfl | rfl <;> rfl

theorem proper_of_operator? (h : operator? cs = some l) (position : Nat) :
    (l.token position).Proper := by
  unfold operator? at h
  split at h
  · cases h
    rfl
  · cases h
    rfl
  · cases h
    rfl
  · split at h
    · next hc =>
      cases h
      exact proper_of_operatorChar hc position
    · cases h
  · cases h

theorem proper_of_function? (h : function? cs = some l) (position : Nat) :
    (l.token position).Proper := by
  simp only [function?] at h
  split at h
  · next hword =>
    cases h
    simp only [Bool.and_eq_true] at hword
    exact hword.2
  · cases h

theorem proper_of_symbol? (h : symbol? cs = some l) (position : Nat) :
    (l.token position).Proper := by
  simp [Token.Proper, token, kind_of_symbol? h]

theorem proper_of_cell? (h : cell? cs = some l) (position : Nat) : (l.token position).Proper := by
  simp [Token.Proper, token, kind_of_cell? h]

theorem proper_of_boolean? (h : boolean? cs = some l) (position : Nat) :
    (l.token position).Proper := by
  unfold boolean? at h
  split at h
  · cases h
    rfl
  · obtain ⟨chars, _, rfl⟩ := Option.map_eq_some_iff.1 h
    rfl

theorem proper_of_text? (h : text? cs = some l) (position : Nat) : (l.token position).Proper := by
  unfold text? at h
  split at h
  · dsimp only at h
    split at h
    · cases h
      rfl
    · cases h
  · cases h

theorem proper_of_number? (h : number? cs = some l) (position : Nat) :
    (l.token position).Proper := by
  simp only [number?] at h
  split at h
  · cases h
  · obtain ⟨x, _, rfl⟩ := Option.map_eq_some_iff.1 h
    rfl

theorem proper_of_ofChars? (h : ofChars? cs = some l) (position : Nat) :
    (l.token position).Proper := by
  cases stands_of_ofChars? h with
  | symbol hl => exact proper_of_symbol? hl position
  | operator hl => exact proper_of_operator? hl position
  | function hl => exact proper_of_function? hl position
  | cell hl => exact proper_of_cell? hl position
  | boolean hl => exact proper_of_boolean? hl position
  | text hl => exact proper_of_text? hl position
  | number hl => exact proper_of_number? hl position

theorem ofChars?_nil : ofChars? [] = none := by
  with_unfolding_all rfl

end Lexeme

/-! ## The first lexeme of a text -/

namespace Scan

variable {position : Nat} {cs : List Char} {l : Lexeme}

/-- Nothing is read where there is nothing but blanks. -/
theorem onward_of_skipBlanks_eq_nil (h : Text.skipBlanks cs = []) :
    onward position cs = ⟨[], none⟩ := by
  rw [onward]
  exact if_pos (List.isEmpty_iff.2 h)

/-- A text goes on behind its first lexeme. -/
theorem onward_of_some (hl : Lexeme.ofChars? (Text.skipBlanks cs) = some l) :
    onward position cs =
      let start := position + byteLength (cs.takeWhile Text.isBlank)
      let others := onward (start + byteLength l.chars) ((Text.skipBlanks cs).drop l.chars.length)
      ⟨l.token start :: others.tokens, others.fault⟩ := by
  have hne : ¬ (Text.skipBlanks cs).isEmpty = true := by
    intro hempty
    rw [List.isEmpty_iff.1 hempty, Lexeme.ofChars?_nil] at hl
    cases hl
  rw [onward]
  dsimp only
  rw [if_neg hne]
  split
  · next hnone =>
    rw [hl] at hnone
    cases hnone
  · next l' hl' =>
    rw [hl] at hl'
    cases hl'
    rfl

/-- Where no lexeme stands, there is a fault. -/
theorem onward_of_none (hne : Text.skipBlanks cs ≠ [])
    (hl : Lexeme.ofChars? (Text.skipBlanks cs) = none) :
    onward position cs = ⟨[], some ⟨position + byteLength (cs.takeWhile Text.isBlank),
      String.ofList ((Text.skipBlanks cs).takeWhile (!Text.isBlank ·))⟩⟩ := by
  rw [onward]
  dsimp only
  rw [if_neg (by simpa using hne)]
  split
  · rfl
  · next l' hl' =>
    rw [hl] at hl'
    cases hl'

end Scan

/-! ## Every token is a lexeme -/

theorem exists_lexeme_of_onward {position : Nat} {cs : List Char} {t : Token}
    (h : t ∈ (Scan.onward position cs).tokens) :
    ∃ cs l, Lexeme.ofChars? cs = some l ∧ t = l.token t.position := by
  fun_induction Scan.onward position cs with
  | case1 => cases h
  | case2 => cases h
  | case3 position cs start rest _ l hl token others ih =>
    rcases List.mem_cons.1 h with rfl | hothers
    · exact ⟨rest, l, hl, rfl⟩
    · exact ih hothers

/-- Every token of a text comes from a lexeme. -/
theorem exists_lexeme_of_tokenize {text : String} {tokens : List Token}
    (h : tokenize text = .ok tokens) {t : Token} (ht : t ∈ tokens) :
    ∃ cs l, Lexeme.ofChars? cs = some l ∧ t = l.token t.position := by
  rw [tokenize] at h
  split at h
  · cases h
    exact exists_lexeme_of_onward ht
  · cases h

/-- The tokens of a text are proper. -/
theorem proper_of_tokenize {text : String} {tokens : List Token}
    (h : tokenize text = .ok tokens) : ∀ t ∈ tokens, t.Proper := by
  intro t ht
  obtain ⟨cs, l, hl, htoken⟩ := exists_lexeme_of_tokenize h ht
  rw [htoken]
  exact Lexeme.proper_of_ofChars? hl t.position

end Spreadsheet
