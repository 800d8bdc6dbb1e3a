import Spreadsheet.Proofs.Formula.Front
import Spreadsheet.Proofs.Formula.Phrases

/-!
# What is accepted

Tokens are read if they derive from the grammar and groups and calls do not nest too deeply in them,
and then the tree is that of the derivation. So reading accepts the phrases of the grammar, and no
other tokens.

## Main results

* `Run.read_of_run`: a run is read as its derivation says.
* `Expr.nesting_le_of_ofTokens`: what is read nests within the limit.
* `Expr.ofTokens_eq_ok_iff`: within the nesting limit, reading finds the trees of the grammar.
* `Expr.exists_ofTokens_iff`: within it, the runs of the grammar are read, and nothing else.
-/

namespace Spreadsheet

open Spreadsheet.Group (nestingFrom nesting Balanced Undivided)

namespace Run

variable {limit depth : Nat} {pending : List Pending} {t : Token}

theorem deeper_of_lt (h : depth < limit) : deeper limit depth t = .ok (depth + 1) := if_pos h

/-- What stands behind a group starts on the level on which the group does. -/
theorem nestingFrom_group {first last : Token} {inner behind : List Token}
    (hopens : first.opens = true) (hbalanced : Balanced inner) (hcloses : last.closes = true) :
    nestingFrom depth (first :: (inner ++ last :: behind)) =
      max (nestingFrom (depth + 1) inner) (nestingFrom depth behind) := by
  have hinner : Group.openAfter Token.separates (depth + 1) inner = some (depth + 1) :=
    hbalanced.openAfter
  have hroom := Group.le_nestingFrom (depth + 1) inner
  rw [nestingFrom, Group.levelBehind_of_opens hopens, Group.nestingFrom_append hinner, nestingFrom,
    Group.levelBehind_of_closes hcloses, Nat.add_sub_cancel]
  omega

/-- Within a run, an undivided part and what stands behind it have the room of the run. -/
theorem nestingFrom_append_le {ts rest : List Token} (hundivided : Undivided ts)
    (h : nestingFrom depth (ts ++ rest) ≤ limit) :
    nestingFrom depth ts ≤ limit ∧ nestingFrom depth rest ≤ limit := by
  rw [Group.nestingFrom_append hundivided.openAfter] at h
  omega

theorem nestingFrom_cons_le {ts : List Token} (hlevel : Group.levelBehind depth t = depth)
    (h : nestingFrom depth (t :: ts) ≤ limit) : nestingFrom depth ts ≤ limit := by
  rw [nestingFrom, hlevel] at h
  omega

theorem read_nil (left : Expr) :
    read limit depth pending (some left) [] = .ok (.ofChain pending left) := by
  rw [read]
  rfl

/-- Where an operand begins, it is read first. -/
theorem read_of_front? {ts behind : List Token} {e : Expr}
    (h : front? limit depth ts = .ok (some (e, behind))) :
    read limit depth pending none ts = read limit depth pending (some e) behind := by
  match ts with
  | [] =>
    rw [front?_nil] at h
    cases h
  | t :: rest =>
    rw [read_cons, h]
    rfl

theorem read_of_sign {sign : Operator} {ts behind : List Token} {e : Expr}
    (hkind : t.kind = .operator) (hsign : Operator.signOfSymbol? t.text = some sign)
    (h : front? limit depth ts = .ok (some (e, behind))) :
    read limit depth pending none (t :: ts) =
      read limit depth pending (some (.operator sign [e])) behind := by
  rw [read_cons, front?_operator hkind]
  simp only [hkind, hsign, h, ne_eq, not_true_eq_false, if_false]

theorem read_of_percent {left : Expr} {ts : List Token} (hkind : t.kind = .operator)
    (htext : t.text = "%") :
    read limit depth pending (some left) (t :: ts) =
      read limit depth pending (some (.operator .percent [left])) ts := by
  rw [read_cons, front?_operator hkind]
  simp only [hkind, htext, ne_eq, not_true_eq_false, if_false, if_true]

theorem read_of_binary {op : Operator} {left : Expr} {ts : List Token} (hkind : t.kind = .operator)
    (hop : Operator.ofSymbol? t.text = some op) (htext : t.text ≠ "%") :
    read limit depth pending (some left) (t :: ts) =
      read limit depth (⟨left, op⟩ :: pending) none ts := by
  rw [read_cons, front?_operator hkind]
  simp only [hkind, htext, hop, ne_eq, not_true_eq_false, if_false]

theorem front?_of_call {first last : Token} {f : Builtin} {inner rest : List Token}
    {args : List (List Token)} {es : List Expr} (hkind : t.kind = .function)
    (hname : Builtin.ofName? t.text = some f) (hopens : first.opens = true)
    (hbalanced : Balanced inner) (hcloses : last.closes = true) (hdepth : depth < limit)
    (hargs : Group.arguments inner = .ok args) (hread : readAll limit (depth + 1) args = .ok es) :
    front? limit depth (t :: first :: (inner ++ last :: rest)) =
      .ok (some (.apply (.builtin f) es, rest)) := by
  rw [front?_function hkind, hname]
  dsimp only
  rw [if_neg (by simp [hopens]), deeper_of_lt hdepth,
    Group.take_of_balanced hopens hbalanced hcloses]
  change (Group.arguments inner).mapError FormulaError.parse >>= _ = _
  rw [hargs]
  change readAll limit (depth + 1) args >>= _ = _
  rw [hread]
  rfl

theorem front?_of_group {last : Token} {inner rest : List Token} {e : Expr}
    (hopens : t.opens = true) (hbalanced : Balanced inner) (hcloses : last.closes = true)
    (hdepth : depth < limit) (hne : inner ≠ [])
    (hread : read limit (depth + 1) [] none inner = .ok e) :
    front? limit depth (t :: (inner ++ last :: rest)) = .ok (some (.group e, rest)) := by
  rw [front?_symbol (Token.kind_of_opens hopens), if_neg (by simp [hopens]), deeper_of_lt hdepth,
    Group.take_of_balanced hopens hbalanced hcloses]
  change (if inner.isEmpty then _ else read limit (depth + 1) [] none inner >>= _) = _
  rw [if_neg (by simpa using hne), hread]
  rfl

open Grammar (Primary Operand Behind Arguments Several)

mutual

/-- A run is read as its derivation says. -/
theorem read_of_run {depth : Nat} {ts : List Token} {e : Expr} {items : List Item}
    (pending : List Pending) (h : Grammar.Run ts e items) (hlimit : nestingFrom depth ts ≤ limit) :
    read limit depth pending none ts = .ok (.ofChain pending (e.graftAll items)) := by
  match h with
  | @Grammar.Run.mk ts behind e items hoperand hbehind =>
    obtain ⟨hfirst, hrest⟩ := nestingFrom_append_le hoperand.undivided hlimit
    rw [read_of_operand pending hoperand hfirst]
    exact read_of_behind pending e hbehind hrest

theorem read_of_operand {depth : Nat} {ts behind : List Token} {e : Expr} (pending : List Pending)
    (h : Operand ts e) (hlimit : nestingFrom depth ts ≤ limit) :
    read limit depth pending none (ts ++ behind) = read limit depth pending (some e) behind := by
  match h with
  | .plain h => exact read_of_front? (front?_of_primary h hlimit)
  | .signed hkind hsign h =>
    have hlevel := Group.levelBehind_of_kind (n := depth) (by rw [hkind]; decide)
    exact read_of_sign hkind hsign (front?_of_primary h (nestingFrom_cons_le hlevel hlimit))

/-- What stands behind an operand is read and grafted from right to left. -/
theorem read_of_behind {depth : Nat} {ts : List Token} {items : List Item}
    (pending : List Pending) (left : Expr) (h : Behind ts items)
    (hlimit : nestingFrom depth ts ≤ limit) :
    read limit depth pending (some left) ts = .ok (.ofChain pending (left.graftAll items)) := by
  match h with
  | .nil => exact read_nil left
  | .percent hkind htext h =>
    have hlevel := Group.levelBehind_of_kind (n := depth) (by rw [hkind]; decide)
    rw [read_of_percent hkind htext]
    exact read_of_behind pending _ h (nestingFrom_cons_le hlevel hlimit)
  | .binary hkind hop htext h =>
    have hlevel := Group.levelBehind_of_kind (n := depth) (by rw [hkind]; decide)
    rw [read_of_binary hkind hop htext]
    exact read_of_run (⟨left, _⟩ :: pending) h (nestingFrom_cons_le hlevel hlimit)

/-- A primary is found at the front of the tokens, whatever stands behind it. -/
theorem front?_of_primary {depth : Nat} {ts rest : List Token} {e : Expr} (h : Primary ts e)
    (hlimit : nestingFrom depth ts ≤ limit) :
    front? limit depth (ts ++ rest) = .ok (some (e, rest)) := by
  match h with
  | .constant hkind hvalue =>
    rw [List.singleton_append, front?_constant hkind, hvalue]
  | .cell hkind => exact front?_cell hkind
  | @Primary.call t first last f inner es hkind hname hopens h hcloses =>
    have hbalanced : Balanced inner := h.phrase.balanced
    have hlevel := Group.levelBehind_of_kind (n := depth) (by rw [hkind]; decide)
    have hgroup := nestingFrom_cons_le hlevel hlimit
    rw [nestingFrom_group hopens hbalanced hcloses] at hgroup
    have hinner : nestingFrom (depth + 1) inner ≤ limit := (Nat.max_le.1 hgroup).1
    have hdepth : depth < limit := Nat.le_trans (Group.le_nestingFrom (depth + 1) inner) hinner
    obtain ⟨args, hargs, hread⟩ := readAll_of_arguments h hinner
    rw [List.cons_append, List.cons_append, List.append_assoc, List.singleton_append]
    exact front?_of_call hkind hname hopens hbalanced hcloses hdepth hargs hread
  | @Primary.group first last inner e items hopens h hcloses =>
    have hbalanced : Balanced inner := h.phrase.undivided.balanced
    rw [nestingFrom_group hopens hbalanced hcloses] at hlimit
    have hinner : nestingFrom (depth + 1) inner ≤ limit := (Nat.max_le.1 hlimit).1
    have hdepth : depth < limit := Nat.le_trans (Group.le_nestingFrom (depth + 1) inner) hinner
    rw [List.cons_append, List.append_assoc, List.singleton_append]
    exact front?_of_group hopens hbalanced hcloses hdepth h.phrase.ne_nil (read_of_run [] h hinner)

/-- The arguments of a call are found and read one by one. -/
theorem readAll_of_arguments {depth : Nat} {ts : List Token} {es : List Expr} (h : Arguments ts es)
    (hlimit : nestingFrom depth ts ≤ limit) :
    ∃ args, Group.arguments ts = .ok args ∧ readAll limit depth args = .ok es := by
  match h with
  | .none => exact ⟨[], rfl, by rw [readAll]⟩
  | .some h =>
    obtain ⟨args, hjoined, hargs, hread⟩ := readAll_of_several h hlimit
    exact ⟨args, Group.arguments_of_joined hjoined h.phrase.ne_nil hargs, hread⟩

theorem readAll_of_several {depth : Nat} {ts : List Token} {es : List Expr} (h : Several ts es)
    (hlimit : nestingFrom depth ts ≤ limit) :
    ∃ args, Group.Joined ts args ∧ (∀ arg ∈ args, arg ≠ [] ∧ Undivided arg) ∧
      readAll limit depth args = .ok es := by
  match h with
  | .last h =>
    refine ⟨[ts], .last ts, by simpa using ⟨h.phrase.ne_nil, h.phrase.undivided⟩, ?_⟩
    rw [readAll, read_of_run [] h hlimit, readAll]
    rfl
  | @Several.cons t ts rest e items es h hseparates hrest =>
    have hundivided : Undivided ts := h.phrase.undivided
    obtain ⟨hfirst, hothers⟩ := nestingFrom_append_le hundivided hlimit
    have hlevel := Group.levelBehind_of_separates (n := depth) hseparates
    obtain ⟨args, hjoined, hargs, hread⟩ :=
      readAll_of_several hrest (nestingFrom_cons_le hlevel hothers)
    refine ⟨ts :: args, .cons ts hseparates hjoined,
      List.forall_mem_cons.2 ⟨⟨h.phrase.ne_nil, hundivided⟩, hargs⟩, ?_⟩
    rw [readAll, read_of_run [] h hfirst, hread]
    rfl

end

/-! ### Nothing that nests deeper is read -/

mutual

/-- What is read nests within the limit. -/
theorem nestingFrom_le_of_read {depth : Nat} {pending : List Pending} {last : Option Expr}
    {ts : List Token} {e : Expr} (hdepth : depth ≤ limit)
    (h : read limit depth pending last ts = .ok e) : nestingFrom depth ts ≤ limit := by
  match ts with
  | [] => exact hdepth
  | t :: rest =>
    rw [read_cons] at h
    rcases hfront : front? limit depth (t :: rest) with err | _ | ⟨first, behind⟩
    · rw [hfront] at h
      cases h
    · rw [hfront] at h
      dsimp only at h
      split at h
      · cases h
      · next hkind =>
        have hoperator : t.kind = .operator := by simpa using hkind
        have hlevel : Group.levelBehind depth t = depth :=
          Group.levelBehind_of_kind (by rw [hoperator]; decide)
        rw [nestingFrom, hlevel]
        refine Nat.max_le.2 ⟨hdepth, ?_⟩
        cases last with
        | none =>
          dsimp only at h
          split at h
          · cases h
          · split at h
            · cases h
            · cases h
            · next first behind hoperand =>
              have := length_lt_of_front? hoperand
              exact nestingFrom_le_of_front? hdepth hoperand (nestingFrom_le_of_read hdepth h)
        | some left =>
          dsimp only at h
          split at h
          · exact nestingFrom_le_of_read hdepth h
          · split at h
            · cases h
            · exact nestingFrom_le_of_read hdepth h
    · have : behind.length < rest.length + 1 := length_lt_of_front? hfront
      rw [hfront] at h
      dsimp only at h
      split at h
      · cases h
      · exact nestingFrom_le_of_front? hdepth hfront (nestingFrom_le_of_read hdepth h)
termination_by 2 * ts.length + 1

/-- So does the operand at the front, if what stands behind it does. -/
theorem nestingFrom_le_of_front? {depth : Nat} {ts behind : List Token} {e : Expr}
    (hdepth : depth ≤ limit) (h : front? limit depth ts = .ok (some (e, behind)))
    (hbehind : nestingFrom depth behind ≤ limit) : nestingFrom depth ts ≤ limit := by
  match ts with
  | [] =>
    rw [front?_nil] at h
    cases h
  | t :: rest =>
    have hword : t.kind ≠ .symbol → nestingFrom depth rest ≤ limit →
        nestingFrom depth (t :: rest) ≤ limit := by
      intro hkind hrest
      rw [nestingFrom, Group.levelBehind_of_kind hkind]
      exact Nat.max_le.2 ⟨hdepth, hrest⟩
    cases hkind : t.kind with
    | constant =>
      rw [front?_constant hkind] at h
      split at h
      · cases h
        exact hword (by simp [hkind]) hbehind
      · cases h
    | cell =>
      rw [front?_cell hkind] at h
      cases h
      exact hword (by simp [hkind]) hbehind
    | operator =>
      rw [front?_operator hkind] at h
      cases h
    | function =>
      obtain ⟨f, inner, args, es, _, hlt, htake, hargs, hread, _⟩ :=
        exists_of_front?_function hkind h
      have := Group.spread_lt_of_take htake hargs
      obtain ⟨hbalanced, hinner⟩ :=
        nestingFrom_le_of_readAll hlt hread (Group.joined_of_arguments hargs)
      obtain ⟨first, last, hopens, hcloses, rfl⟩ := Group.eq_of_take htake
      refine hword (by simp [hkind]) ?_
      rw [nestingFrom_group hopens hbalanced hcloses]
      exact Nat.max_le.2 ⟨hinner, hbehind⟩
    | symbol =>
      obtain ⟨inner, e', hlt, htake, hread, _⟩ := exists_of_front?_symbol hkind h
      have : inner.length < rest.length + 1 := Group.length_lt_of_take htake
      have hinner : nestingFrom (depth + 1) inner ≤ limit := nestingFrom_le_of_read hlt hread
      obtain ⟨left, items, hrun, _⟩ := derives_of_read hread
      obtain ⟨first, last, hopens, hcloses, hts⟩ := Group.eq_of_take htake
      rw [hts, nestingFrom_group hopens hrun.phrase.undivided.balanced hcloses]
      exact Nat.max_le.2 ⟨hinner, hbehind⟩
termination_by 2 * ts.length

/-- And so do the arguments of a call, which are balanced. -/
theorem nestingFrom_le_of_readAll {depth : Nat} {inner : List Token} {args : List (List Token)}
    {es : List Expr} (hdepth : depth ≤ limit) (h : readAll limit depth args = .ok es)
    (hjoined : inner = [] ∧ args = [] ∨ Group.Joined inner args) :
    Balanced inner ∧ nestingFrom depth inner ≤ limit := by
  match args with
  | [] =>
    obtain ⟨rfl, _⟩ : inner = [] ∧ ([] : List (List Token)) = [] :=
      hjoined.resolve_right nofun
    exact ⟨Group.undivided_nil.balanced, hdepth⟩
  | arg :: others =>
    have := Group.spread_cons arg others
    rw [readAll] at h
    split at h
    · cases h
    · next e he =>
      obtain ⟨left, items, hrun, _⟩ := derives_of_read he
      have hundivided : Undivided arg := hrun.phrase.undivided
      have harg : nestingFrom depth arg ≤ limit := nestingFrom_le_of_read hdepth he
      split at h
      · cases h
      · next es' hes =>
        rcases hjoined with ⟨_, hnil⟩ | hjoined
        · cases hnil
        · cases hjoined with
          | last => exact ⟨hundivided.balanced, harg⟩
          | @cons t rest _ _ hseparates hrest =>
            obtain ⟨hbalanced, hothers⟩ := nestingFrom_le_of_readAll hdepth hes (.inr hrest)
            refine ⟨hundivided.balanced.append
              ((Group.balanced_cons_of_separates hseparates).2 hbalanced), ?_⟩
            rw [Group.nestingFrom_append hundivided.openAfter, nestingFrom,
              Group.levelBehind_of_separates hseparates]
            exact Nat.max_le.2 ⟨harg, Nat.max_le.2 ⟨hdepth, hothers⟩⟩
termination_by 2 * Group.spread args

end

end Run

/-- Tokens that are read nest within the limit. -/
theorem Expr.nesting_le_of_ofTokens {tokens : List Token} {limit : Nat} {e : Expr}
    (h : ofTokens tokens limit = .ok e) : nesting tokens ≤ limit := by
  rw [ofTokens] at h
  split at h
  · cases h
  · exact Run.nestingFrom_le_of_read (Nat.zero_le limit) h

/-- Within the nesting limit, reading finds the trees of the grammar. -/
theorem Expr.ofTokens_eq_ok_iff {tokens : List Token} {limit : Nat} {e : Expr}
    (hlimit : nesting tokens ≤ limit) : ofTokens tokens limit = .ok e ↔
      ∃ first items, Grammar.Run tokens first items ∧ e = first.graftAll items := by
  refine ⟨derives_of_ofTokens, ?_⟩
  rintro ⟨first, items, h, rfl⟩
  rw [ofTokens, if_neg (by simpa using h.phrase.ne_nil)]
  exact Run.read_of_run [] h hlimit

/-- Within the nesting limit, the tokens of a text are read if and only if they are a run of the
grammar. -/
theorem Expr.exists_ofTokens_iff {text : String} {tokens : List Token} {limit : Nat}
    (h : tokenize text = .ok tokens) (hlimit : nesting tokens ≤ limit) :
    (∃ e, ofTokens tokens limit = .ok e) ↔ Phrase.Run tokens := by
  constructor
  · rintro ⟨e, he⟩
    obtain ⟨first, items, hrun, _⟩ := derives_of_ofTokens he
    exact hrun.phrase
  · intro hrun
    obtain ⟨first, items, hderives⟩ := hrun.exists_derivation (proper_of_tokenize h)
    exact ⟨_, (ofTokens_eq_ok_iff hlimit).2 ⟨first, items, hderives, rfl⟩⟩

/-- The tokens of a call with a sign before it and a percent sign behind it. -/
def signedCallTokens : List Token :=
  [⟨.operator, "-", none, 0⟩, ⟨.function, "sum", none, 1⟩, ⟨.symbol, "(", none, 4⟩,
    ⟨.cell, "A1", none, 5⟩, ⟨.symbol, ",", none, 7⟩, ⟨.symbol, "(", none, 8⟩,
    ⟨.cell, "B2", none, 9⟩, ⟨.symbol, ")", none, 11⟩, ⟨.symbol, ")", none, 12⟩,
    ⟨.operator, "%", none, 13⟩]

/-- A call with a group in it needs two levels. -/
theorem exists_ofTokens_signedCallTokens :
    tokenize "-sum(A1,(B2))%" = .ok signedCallTokens ∧ nesting signedCallTokens ≤ 2 ∧
      ((∃ e, Expr.ofTokens signedCallTokens 2 = .ok e) ↔ Phrase.Run signedCallTokens) := by
  have htokens : tokenize "-sum(A1,(B2))%" = .ok signedCallTokens := by with_unfolding_all rfl
  have hnesting : nesting signedCallTokens ≤ 2 := by decide +kernel
  exact ⟨htokens, hnesting, Expr.exists_ofTokens_iff htokens hnesting⟩

end Spreadsheet
