import Spreadsheet.Proofs.Formula.Acceptance
import Spreadsheet.Proofs.Formula.Enclosing
import Spreadsheet.Proofs.Formula.Formed
import Spreadsheet.Proofs.Formula.Rounded

/-!
# Reading a delimited text back

The delimited text of a tree says how the formula was understood. With round brackets it is a
formula itself, and it is understood in the same way: every operator stands in brackets of its own,
so that nothing is left to strength and order. By induction on the tree: its text is read as an
operand, whatever stands behind it, and that operand is the tree but for groups.

## Main results

* `rendered_of_formed`: the text of a formed tree is read as an operand that is the same tree.
* `Expr.exists_ofTokens_roundBrackets`: the delimited text of a formula is read back.
-/

namespace Spreadsheet

open Spreadsheet.Grammar (Primary Run Behind Arguments Several)
open Spreadsheet.Group (nesting nestingFrom)
open Spreadsheet.Scan (mark sign rounded prepend)

/-- A number that is written with plain digits which are read as the number again. -/
def Number.ReadsBack (x : Float) : Prop :=
  x.isFinite = true ∧ Number.read? (Number.render x).toList = some x

/-- The text of a tree is read as an operand that is the same tree but for groups. -/
def Rendered (e : Expr) : Prop :=
  ∃ ts e', Primary ts e' ∧ e'.ungrouped = e.ungrouped ∧ Reads e.display.toList ts

variable {e left right : Expr} {op : Operator}

/-! ## Constants and cell names -/

theorem reads_boolean (b : Bool) : Reads (Lexeme.booleanChars b)
    [(⟨.constant, Lexeme.booleanChars b, some (.boolean b)⟩ : Lexeme).token 0] := by
  refine reads_of_lexeme (l := ⟨.constant, Lexeme.booleanChars b, some (.boolean b)⟩) ?_ ?_
    fun rest hrest => Lexeme.ofChars?_boolean b hrest
  · cases b <;> simp [Unquoted, Lexeme.booleanChars]
  · cases b <;> simp [Lexeme.booleanChars, Text.isBlank]

theorem reads_text {cs : List Char} (h : '"' ∉ cs) : Reads ('"' :: (cs ++ ['"']))
    [(⟨.constant, '"' :: (cs ++ ['"']), some (.text (String.ofList cs))⟩ : Lexeme).token 0] := by
  intro rest _
  have htext : '"' :: (cs ++ ['"']) ++ rest = '"' :: (cs ++ '"' :: rest) := by simp
  have hround : '"' :: (cs ++ '"' :: roundFrom false rest) =
      '"' :: (cs ++ ['"']) ++ roundFrom false rest := by simp
  rw [htext]
  refine Scan.rounded_of_lexeme
    (l := ⟨.constant, '"' :: (cs ++ ['"']), some (.text (String.ofList cs))⟩) ?_ ?_ ?_
  · rw [roundFrom_quoted h, hround]
  · simp [Text.isBlank]
  · rw [← hround]
    exact Lexeme.ofChars?_text h

/-- Letters, digits, anchors and points stay as they are. -/
theorem unquoted_of_word {cs : List Char}
    (h : ∀ c ∈ cs, c.isAlphanum = true ∨ c = '$' ∨ c = '.') : Unquoted cs := by
  intro c hc
  have hword := h c hc
  refine ⟨?_, ?_, ?_⟩ <;> (rintro rfl; revert hword; decide)

theorem unquoted_of_plain {cs : List Char} (h : Number.Plain cs) : Unquoted cs := by
  have hdigit : ∀ {c : Char}, c.isDigit = true → c.isAlphanum = true := fun hc => by
    simp [Char.isAlphanum, hc]
  refine unquoted_of_word fun c hc => ?_
  cases h with
  | whole _ hdigits => exact .inl (hdigit (hdigits c hc))
  | point _ hdigits _ hfraction =>
    rcases List.mem_append.1 hc with hfirst | hlast
    · exact .inl (hdigit (hdigits c hfirst))
    · rcases List.mem_cons.1 hlast with rfl | hbehind
      · exact .inr (.inr rfl)
      · exact .inl (hdigit (hfraction c hbehind))

theorem reads_number {x : Float} (hx : Number.Positive x) (h : Number.ReadsBack x) :
    Reads (Number.render x).toList
      [(⟨.constant, (Number.render x).toList, some (.number x)⟩ : Lexeme).token 0] := by
  have hplain : Number.Plain (Number.render x).toList :=
    Number.plain_render h.1 (Number.isNegative_of_positive hx)
  refine reads_of_lexeme (l := ⟨.constant, (Number.render x).toList, some (.number x)⟩)
    (unquoted_of_plain hplain) ?_ fun rest hrest => Lexeme.ofChars?_plain hplain h.2 hrest
  obtain ⟨c, ds, hcons, hdigit⟩ := Lexeme.exists_cons_of_plain hplain
  simp [hcons, Text.not_isBlank_of_isDigit hdigit]

theorem rendered_constant {v : Value} (hv : v.Literal)
    (hnumber : ∀ x, v = .number x → Number.ReadsBack x) : Rendered (.constant v) := by
  have hprimary : ∀ chars, Reads (Expr.constant v).display.toList
      [(⟨.constant, chars, some v⟩ : Lexeme).token 0] → Rendered (.constant v) :=
    fun chars hreads => ⟨_, .constant v, .constant rfl rfl, rfl, hreads⟩
  cases hv with
  | @number x hx =>
    refine hprimary (Number.render x).toList ?_
    rw [Expr.display, Value.display]
    · exact reads_number hx (hnumber _ rfl)
    · simp
  | @text s hquote =>
    have hreads := reads_text hquote
    rw [String.ofList_toList] at hreads
    refine hprimary ('"' :: (s.toList ++ ['"'])) ?_
    rw [Expr.display, String.toList_append, String.toList_append]
    exact hreads
  | boolean b =>
    refine hprimary (Lexeme.booleanChars b) ?_
    have htext : (Expr.constant (.boolean b)).display.toList = Lexeme.booleanChars b := by
      rw [Expr.display, Value.display]
      · cases b <;> rfl
      · simp
    rw [htext]
    exact reads_boolean b

/-- The token of a cell name, wherever it stands. -/
def cellToken (s : Spelling) : Token :=
  (⟨.cell, s.chars, none⟩ : Lexeme).token 0

theorem reads_spelling {s : Spelling} (h : Builtin.ofName? s.text = none) :
    Reads s.chars [cellToken s] := by
  have hunquoted : Unquoted s.chars :=
    unquoted_of_word fun c hc => (s.isAlphanum_or_anchor hc).imp_right .inl
  exact reads_of_lexeme (l := ⟨.cell, s.chars, none⟩) hunquoted
    (fun c hc => s.not_isBlank_of_mem (List.mem_of_mem_head? hc))
    fun rest hrest => Lexeme.ofChars?_spelling h hrest

theorem rendered_reference {s : Spelling} (h : Builtin.ofName? s.text = none) :
    Rendered (.reference s.text) := by
  have hchars : (Expr.reference s.text).display.toList = s.chars := by
    rw [Expr.display, Spelling.text, String.toList_ofList]
  refine ⟨[cellToken s], .reference s.text, .cell rfl, rfl, ?_⟩
  rw [hchars]
  exact reads_spelling h

/-! ## Groups and operators -/

/-- What is read between brackets is read as a group. -/
theorem Reads.group {cs : List Char} {ts : List Token} (h : Reads cs ts) {first last : Char}
    (hfirst : first = '(' ∨ first = '[') (hlast : last = ')' ∨ last = ']') :
    Reads (first :: (cs ++ [last])) (mark '(' :: (ts ++ [mark ')'])) := by
  intro rest _
  have htext : first :: (cs ++ [last]) ++ rest = first :: (cs ++ last :: rest) := by simp
  have hopen : ∀ others, rounded (first :: others) = prepend [mark '('] (rounded others) := by
    rcases hfirst with rfl | rfl
    · exact Scan.rounded_mark (by decide) rfl (.inl rfl)
    · exact Scan.rounded_open
  have hclose : rounded (last :: rest) = prepend [mark ')'] (rounded rest) := by
    rcases hlast with rfl | rfl
    · exact Scan.rounded_mark (by decide) rfl (.inr (.inl rfl)) rest
    · exact Scan.rounded_close rest
  have hends : Lexeme.Ends (roundFrom false (last :: rest)) := by
    rcases hlast with rfl | rfl
    · exact ends_roundFrom (by simp)
    · exact ends_roundFrom (by simp)
  rw [htext, hopen, h _ hends, hclose, ← Scan.prepend_append, ← Scan.prepend_append]
  rfl

theorem rendered_group (h : Rendered e) : Rendered (.group e) := by
  obtain ⟨ts, e', hprimary, htree, hreads⟩ := h
  have htext : (Expr.group e).display.toList = '(' :: (e.display.toList ++ [')']) := by
    simp [Expr.display]
  refine ⟨_, .group e', .group Scan.opens_mark (.of_primary hprimary) Scan.closes_mark,
    by simp [htree], ?_⟩
  rw [htext]
  exact hreads.group (.inl rfl) (.inl rfl)

/-- An operation in brackets is read as a group with its operands in it. -/
theorem rendered_of_run {ts : List Token} {e first : Expr} {items : List Item} {cs : List Char}
    (htext : e.display.toList = '[' :: (cs ++ [']'])) (hrun : Run ts first items)
    (htree : (first.graftAll items).ungrouped = e.ungrouped) (hreads : Reads cs ts) :
    Rendered e := by
  refine ⟨_, .group (first.graftAll items), .group Scan.opens_mark hrun Scan.closes_mark,
    by simp [htree], ?_⟩
  rw [htext]
  exact hreads.group (.inr rfl) (.inr rfl)

theorem rendered_sign (hsign : op.isSign = true) (h : Rendered e) :
    Rendered (.operator op [e]) := by
  obtain ⟨ts, e', hprimary, htree, hreads⟩ := h
  have hfixity : op.fixity = .before := by simpa [Operator.isSign] using hsign
  have hsymbol : Operator.signOfSymbol? op.sourceText = some op := by
    cases op <;> first | rfl | cases hsign
  have hoperand : Grammar.Operand (sign op :: ts) (.operator op [e']) :=
    .signed rfl hsymbol hprimary
  have htext : (Expr.operator op [e]).display.toList =
      '[' :: (op.sourceText.toList ++ e.display.toList ++ [']']) := by
    simp [Expr.display, Expr.displayAll, Expr.displayApply, hfixity]
  refine rendered_of_run htext (.mk hoperand .nil) (by simp [Expr.graftAll, htree]) ?_
  intro rest hrest
  rw [List.append_assoc, Scan.rounded_sign (by simp [hfixity]), hreads rest hrest, List.append_nil,
    ← Scan.prepend_append]
  rfl

theorem rendered_percent (h : Rendered e) : Rendered (.operator .percent [e]) := by
  obtain ⟨ts, e', hprimary, htree, hreads⟩ := h
  have hbehind : Behind [sign .percent] [.percent] := .percent rfl rfl .nil
  have htext : (Expr.operator .percent [e]).display.toList =
      '[' :: (e.display.toList ++ ['%'] ++ [']']) := by
    simp [Expr.display, Expr.displayAll, Expr.displayApply, Operator.fixity, Operator.symbol]
  refine rendered_of_run htext (.mk (.plain hprimary) hbehind) (by simp [Expr.graftAll, htree]) ?_
  intro rest hrest
  have hpercent : rounded ('%' :: rest) = prepend [sign .percent] (rounded rest) :=
    @Scan.rounded_sign .percent (by decide) rest
  rw [List.append_assoc, List.singleton_append, hreads _ (ends_roundFrom (by simp)), hpercent,
    ← Scan.prepend_append]

/-- Two operands without operators at their top are joined by the operator between them. -/
theorem graftAll_of_primary {ts us : List Token} (hop : op ≠ .subtract) (hleft : Primary ts left)
    (hright : Primary us right) :
    left.graftAll [.binary op right] = .operator op [left, right] := by
  have hplain : ∀ {ts : List Token} {e : Expr}, Primary ts e →
      ∀ inner args, e = .operator inner args → False := by
    intro ts e h inner args heq
    cases h <;> cases heq
  rw [Expr.graftAll, Expr.graftAll, Expr.graft_of_not_operator, Expr.join, if_neg hop,
    Expr.place_of_not_operator]
  · exact fun sign operand => hplain hleft sign [operand]
  · exact fun inner first others => hplain hright inner (first :: others)

theorem rendered_between (hfixity : op.fixity = .between) (hop : op ≠ .subtract)
    (hleft : Rendered left) (hright : Rendered right) : Rendered (.operator op [left, right]) := by
  obtain ⟨ts, left', hprimary, htree, hreads⟩ := hleft
  obtain ⟨us, right', hprimary', htree', hreads'⟩ := hright
  have hsymbol : Operator.ofSymbol? op.sourceText = some op ∧ op.sourceText ≠ "%" ∧
      op.sourceText = op.symbol := by
    cases op <;> first | exact ⟨rfl, by decide, rfl⟩ | cases hfixity
  obtain ⟨hof, hpercent, hsource⟩ := hsymbol
  have hbehind : Behind (sign op :: us) [.binary op right'] :=
    .binary rfl hof hpercent (.of_primary hprimary')
  have htext : (Expr.operator op [left, right]).display.toList = '[' ::
      (left.display.toList ++ ' ' :: (op.sourceText.toList ++ ' ' :: right.display.toList) ++
        [']']) := by
    simp [Expr.display, Expr.displayAll, Expr.displayApply, hfixity, hsource]
  have hjoined : (left'.graftAll [.binary op right']).ungrouped =
      (Expr.operator op [left, right]).ungrouped := by
    simp [graftAll_of_primary hop hprimary hprimary', htree, htree']
  refine rendered_of_run htext (.mk (.plain hprimary) hbehind) hjoined ?_
  intro rest hrest
  have hcut : left.display.toList ++ ' ' :: (op.sourceText.toList ++ ' ' :: right.display.toList) ++
      rest = left.display.toList ++
        ' ' :: (op.sourceText.toList ++ ' ' :: (right.display.toList ++ rest)) := by simp
  rw [hcut, hreads _ (ends_roundFrom (by simp)), Scan.rounded_between, hreads' rest hrest,
    ← Scan.prepend_append, ← Scan.prepend_append, List.append_assoc]
  rfl

/-! ## Calls -/

/-- One argument or more, with commas between them, are read one by one. -/
theorem rendered_several {e : Expr} {es : List Expr} (he : Rendered e)
    (hes : ∀ e ∈ es, Rendered e) : ∃ ts es', Several ts es' ∧
      Expr.ungroupedAll es' = Expr.ungroupedAll (e :: es) ∧
      Reads (", ".intercalate (Expr.displayAll (e :: es))).toList ts := by
  induction es generalizing e with
  | nil =>
    obtain ⟨ts, e', hprimary, htree, hreads⟩ := he
    refine ⟨ts, [e'], .last (.of_primary hprimary), by simp [htree], ?_⟩
    simpa [Expr.displayAll] using hreads
  | cons second others ih =>
    obtain ⟨ts, e', hprimary, htree, hreads⟩ := he
    obtain ⟨us, es', hseveral, htrees, hreads'⟩ :=
      ih (hes second List.mem_cons_self) fun e he => hes e (List.mem_cons_of_mem second he)
    refine ⟨ts ++ mark ',' :: us, e' :: es',
      .cons (.of_primary hprimary) Scan.separates_mark hseveral, by simp [htree, htrees], ?_⟩
    intro rest hrest
    have htext : (", ".intercalate (Expr.displayAll (e :: second :: others))).toList ++ rest =
        e.display.toList ++ ',' :: ' ' ::
          ((", ".intercalate (Expr.displayAll (second :: others))).toList ++ rest) := by
      rw [Expr.displayAll, Expr.displayAll, String.intercalate_cons_cons]
      simp
    have hcomma : ∀ cs, rounded (',' :: cs) = prepend [mark ','] (rounded cs) :=
      Scan.rounded_mark (by decide) rfl (.inr (.inr rfl))
    rw [htext, hreads _ (ends_roundFrom (by simp)), hcomma, Scan.rounded_blank, hreads' rest hrest,
      ← Scan.prepend_append, ← Scan.prepend_append, List.append_assoc]
    rfl

theorem rendered_arguments {es : List Expr} (h : ∀ e ∈ es, Rendered e) :
    ∃ ts es', Arguments ts es' ∧ Expr.ungroupedAll es' = Expr.ungroupedAll es ∧
      Reads (", ".intercalate (Expr.displayAll es)).toList ts := by
  cases es with
  | nil => exact ⟨[], [], .none, rfl, fun rest _ => rfl⟩
  | cons e others =>
    obtain ⟨ts, es', hseveral, htrees, hreads⟩ :=
      rendered_several (h e List.mem_cons_self) fun e he => h e (List.mem_cons_of_mem _ he)
    exact ⟨ts, es', .some hseveral, htrees, hreads⟩

/-- The token of the name of a function, wherever it stands. -/
def nameToken (f : Builtin) : Token :=
  (⟨.function, f.name.toList, none⟩ : Lexeme).token 0

theorem reads_name (f : Builtin) : Reads f.name.toList [nameToken f] := by
  obtain ⟨hword, _⟩ := Lexeme.name_word f
  exact reads_of_lexeme (l := ⟨.function, f.name.toList, none⟩)
    (unquoted_of_word fun c hc => .inl (hword c hc))
    (fun c hc => Text.not_isBlank_of_isAlphanum (hword c (List.mem_of_mem_head? hc)))
    fun rest hrest => Lexeme.ofChars?_name f hrest

/-- The name of a function and its arguments in parentheses are read as a call. -/
theorem primary_call (f : Builtin) {ts : List Token} {es : List Expr} (h : Arguments ts es) :
    Primary (nameToken f :: mark '(' :: (ts ++ [mark ')'])) (.apply (.builtin f) es) := by
  have hname : Builtin.ofName? (nameToken f).text = some f := by
    rw [nameToken, Lexeme.token, String.ofList_toList, Lexeme.ofName?_name]
  exact .call rfl hname Scan.opens_mark h Scan.closes_mark

theorem Reads.call {cs : List Char} {ts : List Token} (h : Reads cs ts) (f : Builtin) :
    Reads (f.name.toList ++ '(' :: (cs ++ [')']))
      (nameToken f :: mark '(' :: (ts ++ [mark ')'])) := by
  intro rest hrest
  have hopen : Lexeme.Ends (roundFrom false ('(' :: (cs ++ [')']) ++ rest)) :=
    ends_roundFrom (.inr (.inl rfl))
  rw [List.append_assoc, reads_name f _ hopen, h.group (.inl rfl) (.inl rfl) rest hrest,
    ← Scan.prepend_append]
  rfl

theorem rendered_call {f : Builtin} {es : List Expr} (h : ∀ e ∈ es, Rendered e) :
    Rendered (.apply (.builtin f) es) := by
  obtain ⟨ts, es', harguments, htrees, hreads⟩ := rendered_arguments h
  have htext : (Expr.apply (.builtin f) es).display.toList =
      f.name.toList ++ '(' :: ((", ".intercalate (Expr.displayAll es)).toList ++ [')']) := by
    simp [Expr.display, Expr.displayApply, Expr.displayCall]
  refine ⟨_, _, primary_call f harguments, by simp [htrees], ?_⟩
  rw [htext]
  exact hreads.call f

/-! ## Whole trees -/

/-- The text of a formed tree is read as an operand that is the same tree but for groups. By
induction on the tree: each operator stands in brackets of its own. -/
theorem rendered_of_formed {e : Expr} (h : e.Formed)
    (hnumbers : ∀ x, .number x ∈ e.constants → Number.ReadsBack x) : Rendered e := by
  induction h with
  | constant hliteral =>
    refine rendered_constant hliteral ?_
    rintro x rfl
    exact hnumbers x (by simp [Expr.constants])
  | reference s hname => exact rendered_reference hname
  | call _ ih =>
    refine rendered_call fun e he => ih e he fun x hx => hnumbers x ?_
    rw [Expr.constants]
    exact Expr.mem_constantsOfAll he hx
  | sign hsign _ ih =>
    exact rendered_sign hsign (ih fun x hx => hnumbers x (Expr.mem_constantsOfAll (by simp) hx))
  | percent _ ih =>
    exact rendered_percent (ih fun x hx => hnumbers x (Expr.mem_constantsOfAll (by simp) hx))
  | between hfixity hop _ _ ihleft ihright =>
    refine rendered_between hfixity hop (ihleft fun x hx => hnumbers x ?_)
      (ihright fun x hx => hnumbers x ?_)
    · exact Expr.mem_constantsOfAll (by simp) hx
    · exact Expr.mem_constantsOfAll (by simp) hx
  | group _ ih => exact rendered_group (ih fun x hx => hnumbers x (by rwa [Expr.constants]))

/-- What characters are read as with round brackets, they are tokenized as. -/
theorem tokenize_roundBrackets {text : String} {ts : List Token}
    (h : rounded text.toList = ⟨ts, none⟩) :
    ∃ tokens, tokenize (roundBrackets text) = .ok tokens ∧ tokens.map Token.unplaced = ts := by
  refine exists_tokenize_of_unplaced ?_
  rw [Scan.ofText, roundBrackets, String.toList_ofList]
  exact h

theorem nestingFrom_map_unplaced (n : Nat) (tokens : List Token) :
    nestingFrom n (tokens.map Token.unplaced) = nestingFrom n tokens := by
  induction tokens generalizing n with
  | nil => rfl
  | cons t rest ih =>
    have hlevel : Group.levelBehind n t.unplaced = Group.levelBehind n t := rfl
    rw [List.map_cons, nestingFrom, nestingFrom, hlevel, ih]

/-- The delimited text of a formula, with round brackets, is read as the same tree but for groups,
if its numbers are finite and each of them is read from its text as it was. -/
theorem Expr.exists_ofTokens_roundBrackets {text : String} {limit : Nat} {e : Expr}
    (h : ofFormula text limit = .ok e)
    (hfinite : ∀ x, .number x ∈ e.constants → x.isFinite = true)
    (hnumbers : ∀ x, .number x ∈ e.constants →
      Number.read? (Number.render x).toList = some x) :
    ∃ tokens, tokenize (roundBrackets e.display) = .ok tokens ∧
      ∀ limit', nesting tokens ≤ limit' →
        ∃ e', ofTokens tokens limit' = .ok e' ∧ e'.ungrouped = e.ungrouped := by
  obtain ⟨ts, e', hprimary, htree, hreads⟩ :=
    rendered_of_formed (formed_of_ofFormula h) fun x hx => ⟨hfinite x hx, hnumbers x hx⟩
  have hread : rounded e.display.toList = ⟨ts, none⟩ := by
    have hall := hreads [] .nil
    rwa [List.append_nil, Scan.rounded_nil, prepend, List.append_nil] at hall
  obtain ⟨tokens, htokens, hts⟩ := tokenize_roundBrackets hread
  refine ⟨tokens, htokens, fun limit' hlimit => ⟨e', ?_, htree⟩⟩
  have hnesting : nesting ts ≤ limit' := by
    rwa [← hts, nesting, nestingFrom_map_unplaced]
  have hunplaced : ofTokens (tokens.map Token.unplaced) limit' = .ok e' := by
    rw [hts]
    exact (ofTokens_eq_ok_iff hnesting).2 ⟨e', [], .of_primary hprimary, rfl⟩
  rw [ofTokens_map_unplaced, mapError_eq_ok] at hunplaced
  exact hunplaced

/-- The tree of `=-A1:$b2%-sum(.5,"[x",TRUE)`. -/
def differenceTree : Expr :=
  .operator .add [.operator .percent [.operator .negate
      [.operator .range [.reference "A1", .reference "$b2"]]],
    .operator .negate [.apply (.builtin .sum)
      [.constant (.number 0.5), .constant (.text "[x"), .constant (.boolean true)]]]

/-- A range with a sign and a percent sign, a difference, and constants of each type. -/
theorem exists_ofTokens_differenceTree :
    Expr.ofFormula "=-A1:$b2%-sum(.5,\"[x\",TRUE)" 1 = .ok differenceTree ∧
      (∀ x, .number x ∈ differenceTree.constants → x.isFinite = true) ∧
      (∀ x, .number x ∈ differenceTree.constants →
        Number.read? (Number.render x).toList = some x) ∧
      differenceTree.display = "[[[-[A1 : $b2]]%] + [-SUM(0.5, \"[x\", TRUE)]]" ∧
      ∃ tokens, tokenize (roundBrackets differenceTree.display) = .ok tokens ∧
        ∀ limit', nesting tokens ≤ limit' →
          ∃ e', Expr.ofTokens tokens limit' = .ok e' ∧ e'.ungrouped = differenceTree.ungrouped := by
  have hread : Expr.ofFormula "=-A1:$b2%-sum(.5,\"[x\",TRUE)" 1 = .ok differenceTree := by
    decide +kernel
  have hconstants : ∀ x, .number x ∈ differenceTree.constants → x = 0.5 := by
    intro x hx
    simpa [differenceTree, Expr.constants, Expr.constantsOfAll] using hx
  have hfinite : ∀ x, .number x ∈ differenceTree.constants → x.isFinite = true := by
    intro x hx
    rw [hconstants x hx]
    decide +kernel
  have hnumbers : ∀ x, .number x ∈ differenceTree.constants →
      Number.read? (Number.render x).toList = some x := by
    intro x hx
    rw [hconstants x hx]
    decide +kernel
  exact ⟨hread, hfinite, hnumbers, by decide +kernel,
    Expr.exists_ofTokens_roundBrackets hread hfinite hnumbers⟩

end Spreadsheet
