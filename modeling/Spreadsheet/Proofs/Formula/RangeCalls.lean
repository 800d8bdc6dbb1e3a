import Spreadsheet.Proofs.Formula.Genuine
import Spreadsheet.Proofs.Formula.NestingLimit
import Spreadsheet.Proofs.Formula.Rendering
import Spreadsheet.Proofs.Grid.Spellings

/-!
# Calls with ranges for arguments

A function name, and behind it in parentheses ranges between cell names, with commas between them,
is the text of a call. It is read as that call, however the cell names are written, if none of them
is the name of a function; an anchor keeps a cell name from being one. The one thing that can go
wrong is that not even one call may be nested.

## Main results

* `Expr.ofFormula_rangeCall`: the text of a call with ranges is read as the call.
* `Range.exists_spelledBy`: every range of the grid can be written so.
-/

namespace Spreadsheet

open Spreadsheet.Grammar (Arguments Primary Several)
open Spreadsheet.Scan (mark sign rounded prepend)

/-- Neither of two cell names is the name of a function. -/
def Unreserved (corners : Spelling × Spelling) : Prop :=
  Builtin.ofName? corners.1.text = none ∧ Builtin.ofName? corners.2.text = none

/-- Two cell names, neither of which is the name of a function, are opposite corners of a range. -/
structure Range.SpelledBy (r : Range) (corners : Spelling × Spelling) : Prop where
  unreserved : Unreserved corners
  ofNames : Range.ofNames corners.1.text corners.2.text = .ok r

/-- The text of a range between two cell names. -/
def rangeText (corners : Spelling × Spelling) : String :=
  corners.1.text ++ ":" ++ corners.2.text

/-- The tree of a range between two cell names. -/
def rangeExpr (corners : Spelling × Spelling) : Expr :=
  .operator .range [.reference corners.1.text, .reference corners.2.text]

/-- The text of a call whose arguments are ranges. -/
def rangeCallText (f : Builtin) (args : List (Spelling × Spelling)) : String :=
  f.name ++ "(" ++ ",".intercalate (args.map rangeText) ++ ")"

/-! ## Ranges of the grid -/

/-- The canonical name of a place with anchors before both parts. -/
def Position.anchoredSpelling (p : Position) : Spelling :=
  { p.spelling with colAnchored := true, rowAnchored := true }

theorem Position.ofName?_anchoredSpelling (p : Position) :
    Builtin.ofName? p.anchoredSpelling.text = none :=
  Lexeme.ofName?_eq_none_of_anchored (.inl rfl)

theorem Position.parse_anchoredSpelling {p : Position} (h : p.inGrid = true) :
    ∃ a, Address.parse p.anchoredSpelling.text = .ok a ∧ a.toPosition = p := by
  have hread : Address.parse (Address.anchored p).text = .ok (Address.anchored p) :=
    Address.parse_text h
  rw [← Address.text_spelling] at hread
  exact ⟨Address.anchored p, hread, rfl⟩

namespace Range

variable {r : Range}

/-- Every range of the grid can be written with names of its corners. -/
theorem exists_spelledBy (h : r.last.inGrid = true) : ∃ corners, r.SpelledBy corners := by
  obtain ⟨a, ha, hfirst⟩ := Position.parse_anchoredSpelling (inGrid_first h)
  obtain ⟨b, hb, hlast⟩ := Position.parse_anchoredSpelling h
  refine ⟨(r.first.anchoredSpelling, r.last.anchoredSpelling),
    ⟨r.first.ofName?_anchoredSpelling, r.last.ofName?_anchoredSpelling⟩, ?_⟩
  rw [ofNames_of_parse ha hb, hfirst, hlast, ofCorners_first_last]

end Range

/-! ## The tokens of a call -/

/-- A character of a call with ranges. -/
def IsCallCharacter (c : Char) : Prop :=
  c.isAlphanum = true ∨ c ∈ ['$', ':', ',', '(', ')']

theorem unquoted_of_isCallCharacter {cs : List Char} (h : ∀ c ∈ cs, IsCallCharacter c) :
    Unquoted cs := by
  intro c hc
  rcases h c hc with hword | hmark
  · have hone : Unquoted [c] := unquoted_of_word (by simpa using .inl hword)
    exact hone c List.mem_cons_self
  · have hall :
        ['$', ':', ',', '(', ')'].all (fun c => c != '"' && c != '[' && c != ']') = true := by
      decide
    simpa [and_assoc] using List.all_eq_true.1 hall c hmark

theorem not_isBlank_of_isCallCharacter {c : Char} (h : IsCallCharacter c) :
    Text.isBlank c = false := by
  rcases h with hword | hmark
  · exact Text.not_isBlank_of_isAlphanum hword
  · have hall : ['$', ':', ',', '(', ')'].all (fun c => !Text.isBlank c) = true := by
      decide +kernel
    simpa using List.all_eq_true.1 hall c hmark

theorem isCallCharacter_rangeText (corners : Spelling × Spelling) :
    ∀ c ∈ (rangeText corners).toList, IsCallCharacter c := by
  have hname : ∀ s : Spelling, ∀ c ∈ s.chars, IsCallCharacter c := by
    intro s c hc
    rcases s.isAlphanum_or_anchor hc with hword | rfl
    · exact .inl hword
    · exact .inr List.mem_cons_self
  intro c hc
  simp only [rangeText, Spelling.text, String.toList_append, String.toList_ofList,
    List.mem_append] at hc
  rcases hc with (hc | hc) | hc
  · exact hname _ c hc
  · exact .inr (by simp_all)
  · exact hname _ c hc

/-- The tokens of a range between two cell names. -/
def rangeTokens (corners : Spelling × Spelling) : List Token :=
  [cellToken corners.1, sign .range, cellToken corners.2]

theorem reads_range {corners : Spelling × Spelling} (h : Unreserved corners) :
    Reads (rangeText corners).toList (rangeTokens corners) := by
  intro rest hrest
  have htext : (rangeText corners).toList ++ rest =
      corners.1.chars ++ ':' :: (corners.2.chars ++ rest) := by
    simp [rangeText, Spelling.text]
  have hcolon : rounded (':' :: (corners.2.chars ++ rest)) =
      prepend [sign .range] (rounded (corners.2.chars ++ rest)) :=
    Scan.rounded_of_lexeme (l := ⟨.operator, [':'], none⟩) rfl (by simp [Text.isBlank]) rfl
  have hends : Lexeme.Ends (roundFrom false (':' :: (corners.2.chars ++ rest))) :=
    .cons (by decide +kernel)
  rw [htext, reads_spelling h.1 _ hends, hcolon, reads_spelling h.2 rest hrest,
    ← Scan.prepend_append, ← Scan.prepend_append]
  rfl

/-- A range is a run of the grammar. -/
theorem derives_range (corners : Spelling × Spelling) : ∃ first items,
    Grammar.Run (rangeTokens corners) first items ∧ rangeExpr corners = first.graftAll items := by
  have htext : ∀ s : Spelling, (cellToken s).text = s.text := fun _ => rfl
  have hstart : Primary [cellToken corners.1] (.reference (cellToken corners.1).text) := .cell rfl
  have hstop : Primary [cellToken corners.2] (.reference (cellToken corners.2).text) := .cell rfl
  have hbehind : Grammar.Behind [sign .range, cellToken corners.2]
      [.binary .range (.reference (cellToken corners.2).text)] :=
    .binary rfl rfl (by decide) (.of_primary hstop)
  refine ⟨_, _, .mk (.plain hstart) hbehind, ?_⟩
  rw [graftAll_of_primary (by decide) hstart hstop, htext, htext]
  rfl

/-- The characters of ranges with commas between them. -/
def rangesChars (args : List (Spelling × Spelling)) : List Char :=
  (",".intercalate (args.map rangeText)).toList

theorem rangesChars_cons_cons (p q : Spelling × Spelling) (others : List (Spelling × Spelling)) :
    rangesChars (p :: q :: others) = (rangeText p).toList ++ ',' :: rangesChars (q :: others) := by
  rw [rangesChars, List.map_cons, List.map_cons, String.intercalate_cons_cons]
  simp [rangesChars]

theorem isCallCharacter_rangesChars (args : List (Spelling × Spelling)) :
    ∀ c ∈ rangesChars args, IsCallCharacter c := by
  match args with
  | [] => simp [rangesChars]
  | [p] => simpa [rangesChars] using isCallCharacter_rangeText p
  | p :: q :: others =>
    intro c hc
    rw [rangesChars_cons_cons, List.mem_append, List.mem_cons] at hc
    rcases hc with hc | rfl | hc
    · exact isCallCharacter_rangeText p c hc
    · exact .inr (by decide)
    · exact isCallCharacter_rangesChars (q :: others) c hc

/-- Ranges with commas between them are read as arguments of a call. -/
theorem exists_several (p : Spelling × Spelling) (others : List (Spelling × Spelling))
    (h : ∀ q ∈ p :: others, Unreserved q) : ∃ ts, Several ts ((p :: others).map rangeExpr) ∧
      Reads (rangesChars (p :: others)) ts := by
  obtain ⟨hp, hothers⟩ := List.forall_mem_cons.1 h
  obtain ⟨first, items, hrun, htree⟩ := derives_range p
  induction others generalizing p first items with
  | nil =>
    refine ⟨rangeTokens p, ?_, by simpa [rangesChars] using reads_range hp⟩
    rw [List.map_singleton, htree]
    exact .last hrun
  | cons second others ih =>
    obtain ⟨hsecond, hrest⟩ := List.forall_mem_cons.1 hothers
    obtain ⟨first', items', hrun', htree'⟩ := derives_range second
    obtain ⟨ts, hseveral, hreads⟩ := ih second hothers hsecond hrest first' items' hrun' htree'
    refine ⟨rangeTokens p ++ mark ',' :: ts, ?_, ?_⟩
    · rw [List.map_cons, htree]
      exact .cons hrun Scan.separates_mark hseveral
    · intro rest hends
      have htext : rangesChars (p :: second :: others) ++ rest =
          (rangeText p).toList ++ ',' :: (rangesChars (second :: others) ++ rest) := by
        rw [rangesChars_cons_cons]
        simp
      have hcomma : ∀ cs, rounded (',' :: cs) = prepend [mark ','] (rounded cs) :=
        Scan.rounded_mark (by decide) rfl (.inr (.inr rfl))
      rw [htext, reads_range hp _ (ends_roundFrom (by simp)), hcomma, hreads rest hends,
        ← Scan.prepend_append, ← Scan.prepend_append, List.append_assoc]
      rfl

/-! ## The text of a call -/

/-- The first token of a text without blanks before it stands at the beginning. -/
theorem position_of_tokenize {text : String} {t : Token} {rest : List Token}
    (hblank : ∀ c ∈ text.toList.head?, Text.isBlank c = false)
    (h : tokenize text = .ok (t :: rest)) : t.position = 0 := by
  have hnone : text.toList.takeWhile Text.isBlank = [] := by
    cases hchars : text.toList with
    | nil => rfl
    | cons c others => exact List.takeWhile_cons_of_neg (by simp [hblank c (hchars ▸ rfl)])
  have htokens : (Scan.ofText text).tokens = t :: rest := by
    rw [tokenize] at h
    split at h
    · exact Except.ok.inj h
    · cases h
  cases hl : Lexeme.ofChars? (Text.skipBlanks text.toList) with
  | none =>
    by_cases hempty : Text.skipBlanks text.toList = []
    · rw [Scan.ofText, Scan.onward_of_skipBlanks_eq_nil hempty] at htokens
      cases htokens
    · rw [Scan.ofText, Scan.onward_of_none hempty hl] at htokens
      cases htokens
  | some l =>
    rw [Scan.ofText, Scan.onward_of_some hl, hnone] at htokens
    cases htokens
    rfl

section Call

variable (f : Builtin) (p : Spelling × Spelling) (others : List (Spelling × Spelling))

theorem toList_rangeCallText (args : List (Spelling × Spelling)) :
    (rangeCallText f args).toList = f.name.toList ++ '(' :: (rangesChars args ++ [')']) := by
  simp [rangeCallText, rangesChars]

theorem isCallCharacter_rangeCallText (args : List (Spelling × Spelling)) :
    ∀ c ∈ (rangeCallText f args).toList, IsCallCharacter c := by
  intro c hc
  rw [toList_rangeCallText] at hc
  simp only [List.mem_append, List.mem_cons, List.not_mem_nil, or_false] at hc
  rcases hc with hc | rfl | hc | rfl
  · exact .inl ((Lexeme.name_word f).1 c hc)
  · exact .inr (by decide)
  · exact isCallCharacter_rangesChars args c hc
  · exact .inr (by decide)

theorem formulaBody_rangeCallText (args : List (Spelling × Spelling)) :
    formulaBody (rangeCallText f args) = rangeCallText f args := by
  have hchars := isCallCharacter_rangeCallText f args
  have htrim : Text.trimChars (rangeCallText f args).toList = (rangeCallText f args).toList :=
    Text.trimChars_of_not_blank fun c hc => not_isBlank_of_isCallCharacter (hchars c hc)
  rw [formulaBody, htrim]
  split
  · next rest hequals =>
    have hnot : ¬ IsCallCharacter '=' := by
      unfold IsCallCharacter
      decide
    exact absurd (hchars '=' (hequals ▸ List.mem_cons_self)) hnot
  · exact String.ofList_toList

/-- The tokens of a call with ranges: its name at the beginning of the text, and the arguments in
parentheses behind it. -/
theorem exists_tokenize_rangeCallText (h : ∀ q ∈ p :: others, Unreserved q) :
    ∃ inner rest, tokenize (rangeCallText f (p :: others)) =
        .ok (⟨.function, f.name, none, 0⟩ :: rest) ∧
      rest.map Token.unplaced = mark '(' :: (inner ++ [mark ')']) ∧
      Several inner ((p :: others).map rangeExpr) := by
  obtain ⟨inner, hseveral, hreads⟩ := exists_several p others h
  have hchars := isCallCharacter_rangeCallText f (p :: others)
  have hround : roundFrom false (rangeCallText f (p :: others)).toList =
      (rangeCallText f (p :: others)).toList := by
    have happend := roundFrom_append (unquoted_of_isCallCharacter hchars) []
    simpa [roundFrom] using happend
  have hscan : (Scan.ofText (rangeCallText f (p :: others))).unplaced =
      ⟨nameToken f :: mark '(' :: (inner ++ [mark ')']), none⟩ := by
    have hall := hreads.call f [] .nil
    rw [List.append_nil, ← toList_rangeCallText, Scan.rounded_nil, rounded, hround, prepend,
      List.append_nil] at hall
    exact hall
  obtain ⟨tokens, htokens, hunplaced⟩ := exists_tokenize_of_unplaced hscan
  obtain ⟨t, rest, rfl, hfirst, hrest⟩ := List.map_eq_cons_iff.1 hunplaced
  have hposition : t.position = 0 := by
    refine position_of_tokenize (fun c hc => ?_) htokens
    exact not_isBlank_of_isCallCharacter (hchars c (List.mem_of_mem_head? hc))
  have hname : t = ⟨.function, f.name, none, 0⟩ := by
    obtain ⟨kind, text, value, position⟩ := t
    cases hposition
    rw [nameToken, Lexeme.token, String.ofList_toList] at hfirst
    exact hfirst
  rw [hname] at htokens
  exact ⟨inner, rest, htokens, hrest, hseveral⟩

theorem groupDepthOfAll_rangeExpr (args : List (Spelling × Spelling)) :
    Expr.groupDepthOfAll (args.map rangeExpr) = 0 := by
  induction args with
  | nil => rw [List.map_nil, Expr.groupDepthOfAll]
  | cons q others ih =>
    rw [List.map_cons, Expr.groupDepthOfAll, ih, rangeExpr, Expr.groupDepth_operator,
      Expr.groupDepthOfAll_two, Expr.groupDepth, Expr.groupDepth]
    rfl

/-- Where no call may be nested, a call is not read. -/
theorem ofTokens_zero_of_call {t : Token} {rest : List Token} (hkind : t.kind = .function)
    (hname : Builtin.ofName? t.text = some f) (hopens : rest.head?.any Token.opens = true) :
    Expr.ofTokens (t :: rest) 0 = .error (.parse (.tooDeep t.text t.position 0)) := by
  have hdeeper : Run.deeper 0 0 t = .error (.parse (.tooDeep t.text t.position 0)) := rfl
  rw [Expr.ofTokens, if_neg (by simp), Run.read_cons, Run.front?_function hkind, hname]
  dsimp only
  rw [if_neg (by simp [hopens]), hdeeper]
  rfl

/-- The text of a call with ranges is read as the call, if one call may be nested. -/
theorem Expr.ofFormula_rangeCall (h : ∀ q ∈ p :: others, Unreserved q) (limit : Nat) :
    ofFormula (rangeCallText f (p :: others)) limit =
      if 0 < limit then .ok (.apply (.builtin f) ((p :: others).map rangeExpr))
      else .error (.parse (.tooDeep f.name 0 limit)) := by
  obtain ⟨inner, rest, htokens, hrest, hseveral⟩ := exists_tokenize_rangeCallText f p others h
  have hread : ofFormula (rangeCallText f (p :: others)) limit =
      ofTokens (⟨.function, f.name, none, 0⟩ :: rest) limit := by
    rw [ofFormula, formulaBody_rangeCallText, htokens]
    rfl
  rw [hread]
  split
  · next hlimit =>
    have hts : (⟨.function, f.name, none, 0⟩ :: rest).map Token.unplaced =
        nameToken f :: mark '(' :: (inner ++ [mark ')']) := by
      rw [List.map_cons, hrest, nameToken, Lexeme.token, String.ofList_toList]
      rfl
    have hrun := Grammar.Run.of_primary (primary_call f (.some hseveral))
    have hnesting :
        Group.nesting (nameToken f :: mark '(' :: (inner ++ [mark ')'])) ≤ limit := by
      rw [Group.nesting, hrun.nestingFrom_eq, graftAll, Expr.groupDepth, groupDepthOfAll_rangeExpr]
      omega
    rw [← mapError_eq_ok FormulaError.unplaced, ← ofTokens_map_unplaced, hts]
    exact (ofTokens_eq_ok_iff hnesting).2 ⟨_, _, hrun, rfl⟩
  · next hlimit =>
    obtain ⟨t, others', rfl, ht, _⟩ := List.map_eq_cons_iff.1 hrest
    have hopens : t.opens = true := congrArg Token.opens ht
    cases Nat.eq_zero_of_not_pos hlimit
    exact ofTokens_zero_of_call f rfl (Lexeme.ofName?_name f) hopens

end Call

end Spreadsheet
