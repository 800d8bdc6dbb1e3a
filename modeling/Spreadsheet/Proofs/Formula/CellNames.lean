import Spreadsheet.Proofs.Evaluation.References
import Spreadsheet.Proofs.Formula.Climb
import Spreadsheet.Proofs.Formula.Lexemes
import Spreadsheet.Proofs.Grid.Spellings
import Mathlib.Data.List.TakeWhile

/-!
# The cells that a formula mentions

The cell names in the tree of a formula are texts of its tokens, so they are spelled as cell names
are. What they are looked up by is therefore canonical, and so are the names of the cells of ranges:
every cell of the grid is mentioned under one name only.

## Main results

* `names_of_ofTokens`: the cell names in a tree are texts of cell tokens.
* `exists_spelling_of_tokenize`: cell tokens are letters and digits with optional anchors.
* `canonical_of_mentioned`: the cells that a formula mentions have canonical names.
-/

namespace Spreadsheet

/-- The cell names that stand in an expression, as written. -/
inductive Expr.Names : Expr → String → Prop
  | reference (name : String) : Names (.reference name) name
  | group {inner : Expr} {name : String} (h : Names inner name) : Names (.group inner) name
  | operand {operation : Operation} {args : List Expr} {e : Expr} {name : String} (he : e ∈ args)
    (h : Names e name) : Names (.apply operation args) name

namespace Expr

variable {name : String}

theorem not_names_constant {v : Value} : ¬ (Expr.constant v).Names name := nofun

theorem names_group {inner : Expr} : (Expr.group inner).Names name ↔ inner.Names name :=
  ⟨fun h => by cases h with | group h => exact h, .group⟩

theorem names_apply {operation : Operation} {args : List Expr} :
    (Expr.apply operation args).Names name ↔ ∃ e ∈ args, e.Names name :=
  ⟨fun h => by cases h with | operand he h => exact ⟨_, he, h⟩, fun ⟨_, he, h⟩ => .operand he h⟩

/-! ## Grafting -/

theorem names_place {op : Operator} {right left : Expr} (h : (place op right left).Names name) :
    left.Names name ∨ right.Names name := by
  fun_induction place op right left with
  | case1 sign operand _ ih =>
    simp only [names_apply, List.mem_singleton, exists_eq_left] at h ⊢
    exact ih h
  | case2 sign operand _ =>
    simpa [names_apply] using h
  | case3 left _ =>
    simpa [names_apply] using h

theorem names_join {op : Operator} {left right : Expr} (h : (join left op right).Names name) :
    left.Names name ∨ right.Names name := by
  rw [join] at h
  split at h
  · rcases names_place h with hleft | hright
    · exact .inl hleft
    · simp only [names_apply, List.mem_singleton, exists_eq_left] at hright
      exact .inr hright
  · exact names_place h

/-- Grafting brings no new names. -/
theorem names_graft {op : Operator} {left right : Expr} (h : (graft left op right).Names name) :
    left.Names name ∨ right.Names name := by
  fun_induction graft left op right with
  | case1 inner first others _ ih =>
    simp only [names_apply, List.mem_cons, exists_eq_or_imp] at h ⊢
    rcases h with hfirst | hothers
    · exact (ih hfirst).imp id .inl
    · exact .inr (.inr hothers)
  | case2 inner first others _ => exact names_join h
  | case3 right _ => exact names_join h

end Expr

/-- The cell names in the operands of items. -/
def Item.Names (items : List Item) (name : String) : Prop :=
  ∃ op operand, Item.binary op operand ∈ items ∧ operand.Names name

namespace Item

variable {name : String} {items : List Item}

theorem not_names_nil : ¬ Names [] name := by
  rintro ⟨op, operand, hmem, _⟩
  cases hmem

theorem names_percent : Names (.percent :: items) name ↔ Names items name := by
  simp [Names]

theorem names_binary {op : Operator} {operand : Expr} :
    Names (.binary op operand :: items) name ↔ operand.Names name ∨ Names items name := by
  simp only [Names, List.mem_cons, Item.binary.injEq]
  constructor
  · rintro ⟨op', operand', ⟨rfl, rfl⟩ | hmem, hnames⟩
    · exact .inl hnames
    · exact .inr ⟨op', operand', hmem, hnames⟩
  · rintro (hnames | ⟨op', operand', hmem, hnames⟩)
    · exact ⟨op, operand, .inl ⟨rfl, rfl⟩, hnames⟩
    · exact ⟨op', operand', .inr hmem, hnames⟩

end Item

theorem Expr.names_graftAll {left : Expr} {items : List Item} {name : String}
    (h : (left.graftAll items).Names name) : left.Names name ∨ Item.Names items name := by
  fun_induction graftAll left items with
  | case1 left => exact .inl h
  | case2 left rest ih =>
    rw [Item.names_percent]
    simpa [names_apply] using ih h
  | case3 left op operand rest ih =>
    rw [Item.names_binary]
    exact (names_graft h).imp id ih

/-! ## Names are texts of tokens -/

/-- The text of a cell token. -/
def CellText (ts : List Token) (name : String) : Prop :=
  ∃ t ∈ ts, t.kind = .cell ∧ t.text = name

theorem CellText.mono {ts us : List Token} {name : String} (h : CellText ts name) (hsub : ts ⊆ us) :
    CellText us name := by
  obtain ⟨t, ht, hcell⟩ := h
  exact ⟨t, hsub ht, hcell⟩

namespace Grammar

variable {name : String}

mutual

theorem Primary.cellText {ts : List Token} {e : Expr} (h : Primary ts e) (hname : e.Names name) :
    CellText ts name := by
  match h with
  | .constant _ _ => exact absurd hname Expr.not_names_constant
  | @Primary.cell t hkind =>
    cases hname
    exact ⟨t, List.mem_singleton_self t, hkind, rfl⟩
  | .call _ _ _ harguments _ =>
    exact (harguments.cellText (Expr.names_apply.1 hname)).mono
      (by simp +contextual [List.subset_def])
  | .group _ hrun _ =>
    have hinner := Expr.names_graftAll (Expr.names_group.1 hname)
    exact (hrun.cellText hinner).mono (by simp +contextual [List.subset_def])

theorem Operand.cellText {ts : List Token} {e : Expr} (h : Operand ts e) (hname : e.Names name) :
    CellText ts name := by
  match h with
  | .plain hprimary => exact hprimary.cellText hname
  | .signed _ _ hprimary =>
    have hinner := Expr.names_apply.1 hname
    simp only [List.mem_singleton, exists_eq_left] at hinner
    exact (hprimary.cellText hinner).mono (List.subset_cons_self _ _)

/-- The cell names in a run are texts of its cell tokens. -/
theorem Run.cellText {ts : List Token} {e : Expr} {items : List Item} (h : Run ts e items)
    (hname : e.Names name ∨ Item.Names items name) : CellText ts name := by
  match h with
  | .mk hoperand hbehind =>
    rcases hname with hfirst | hitems
    · exact (hoperand.cellText hfirst).mono (List.subset_append_left _ _)
    · exact (hbehind.cellText hitems).mono (List.subset_append_right _ _)

theorem Behind.cellText {ts : List Token} {items : List Item} (h : Behind ts items)
    (hname : Item.Names items name) : CellText ts name := by
  match h with
  | .nil => exact absurd hname Item.not_names_nil
  | .percent _ _ hbehind =>
    exact (hbehind.cellText (Item.names_percent.1 hname)).mono (List.subset_cons_self _ _)
  | .binary _ _ _ hrun =>
    exact (hrun.cellText (Item.names_binary.1 hname)).mono (List.subset_cons_self _ _)

theorem Arguments.cellText {ts : List Token} {es : List Expr} (h : Arguments ts es)
    (hname : ∃ e ∈ es, e.Names name) : CellText ts name := by
  match h with
  | .none =>
    obtain ⟨e, he, _⟩ := hname
    cases he
  | .some hseveral => exact hseveral.cellText hname

theorem Several.cellText {ts : List Token} {es : List Expr} (h : Several ts es)
    (hname : ∃ e ∈ es, e.Names name) : CellText ts name := by
  match h with
  | .last hrun =>
    simp only [List.mem_singleton, exists_eq_left] at hname
    exact hrun.cellText (Expr.names_graftAll hname)
  | .cons hrun _ hrest =>
    simp only [List.mem_cons, exists_eq_or_imp] at hname
    rcases hname with hfirst | hothers
    · exact (hrun.cellText (Expr.names_graftAll hfirst)).mono (List.subset_append_left _ _)
    · exact (hrest.cellText hothers).mono
        (List.Subset.trans (List.subset_cons_self _ _) (List.subset_append_right _ _))

end

end Grammar

/-- The cell names in a tree are texts of the cell tokens that it is read from. -/
theorem names_of_ofTokens {tokens : List Token} {limit : Nat} {e : Expr} {name : String}
    (h : Expr.ofTokens tokens limit = .ok e) (hname : e.Names name) : CellText tokens name := by
  obtain ⟨first, items, hrun, rfl⟩ := Expr.derives_of_ofTokens h
  exact hrun.cellText (Expr.names_graftAll hname)

/-! ## Cell tokens are spelled as cell names -/

namespace Lexeme

theorem exists_spelling_of_cell? {cs : List Char} {l : Lexeme} (h : cell? cs = some l) :
    ∃ s : Spelling, l.chars = s.chars := by
  have hanchor : ∀ cs, ∃ anchored, anchor cs = Spelling.anchor anchored := by
    intro cs
    unfold anchor
    split
    · exact ⟨true, rfl⟩
    · exact ⟨false, rfl⟩
  simp only [cell?] at h
  split at h
  · cases h
  · next hne =>
    cases h
    simp only [Bool.or_eq_true, List.isEmpty_iff, not_or] at hne
    obtain ⟨colAnchored, hcol⟩ := hanchor cs
    obtain ⟨rowAnchored, hrow⟩ := hanchor ((cs.drop (anchor cs).length).dropWhile Char.isAlpha)
    refine ⟨⟨colAnchored, _, rowAnchored, _, hne.1, hne.2, fun c hc => ?_, fun c hc => ?_⟩, ?_⟩
    · exact List.mem_takeWhile_imp hc
    · exact List.mem_takeWhile_imp hc
    · simp only [Spelling.chars, ← hcol, ← hrow, List.append_assoc]

end Lexeme

/-- The cell tokens of a text are letters and digits with optional anchors. -/
theorem exists_spelling_of_tokenize {text name : String} {tokens : List Token}
    (h : tokenize text = .ok tokens) (hname : CellText tokens name) :
    ∃ s : Spelling, name = s.text := by
  obtain ⟨t, ht, hkind, rfl⟩ := hname
  obtain ⟨cs, l, hl, htoken⟩ := exists_lexeme_of_tokenize h ht
  rw [htoken] at hkind ⊢
  obtain ⟨s, hs⟩ := Lexeme.exists_spelling_of_cell? (Lexeme.function?_eq_none_of_cell hl hkind).2
  exact ⟨s, congrArg String.ofList hs⟩

/-! ## Mentioned cells have canonical names -/

theorem Expr.canonical_of_mentions {e : Expr} {name : String}
    (hspelled : ∀ written, e.Names written → ∃ s : Spelling, written = s.text)
    (h : e.Mentions name) : Canonical name := by
  induction h with
  | reference written =>
    obtain ⟨s, rfl⟩ := hspelled written (.reference written)
    exact s.canonical_canonicalName
  | group _ ih => exact ih fun written hwritten => hspelled written (.group hwritten)
  | operand _ he _ ih => exact ih fun written hwritten => hspelled written (.operand he hwritten)
  | member _ hrange hmember =>
    exact canonical_name (Range.inGrid_of_contains (Range.inGrid_last hrange) hmember)
  | stray _ he _ ih => exact ih fun written hwritten => hspelled written (.operand he hwritten)

/-- The cells that a formula mentions have canonical names. -/
theorem canonical_of_mentioned {options : Options} {text name : String}
    (h : Mentioned options text name) : Canonical name := by
  obtain ⟨e, hparse, hmentions⟩ := h
  refine e.canonical_of_mentions (fun written hwritten => ?_) hmentions
  rw [Expr.ofFormula] at hparse
  cases htokens : tokenize (formulaBody text) with
  | error err => rw [htokens] at hparse; cases hparse
  | ok tokens =>
    rw [htokens] at hparse
    exact exists_spelling_of_tokenize htokens (names_of_ofTokens hparse hwritten)

/-- So do the cells that it refers to through other cells. -/
theorem canonical_of_reaches {env : Environment} {options : Options} {first name : String}
    (hfirst : Canonical first)
    (h : Relation.ReflTransGen (env.Refers options) first name) : Canonical name := by
  cases h with
  | refl => exact hfirst
  | tail _ hlast =>
    obtain ⟨_, _, hmentioned⟩ := hlast
    exact canonical_of_mentioned hmentioned

/-- And so do the cells that it depends on. -/
theorem canonical_of_dependsOn {env : Environment} {options : Options} {text name : String}
    (h : DependsOn env options text name) : Canonical name := by
  obtain ⟨first, hfirst, hreached⟩ := h
  cases hreached with
  | refl => exact canonical_of_mentioned hfirst.mentioned
  | tail _ hlast =>
    obtain ⟨_, _, hreads⟩ := hlast
    exact canonical_of_mentioned hreads.mentioned

end Spreadsheet
