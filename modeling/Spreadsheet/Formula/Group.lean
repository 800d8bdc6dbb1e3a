import Spreadsheet.Formula.Token

/-!
# Groups and argument lists

A group is an opening parenthesis, the run of tokens that it encloses, and the closing parenthesis
that matches it. A run between the parentheses of a call is split into arguments at its commas,
except those inside further groups.

## Main results

* `eq_of_enclosed?`: an enclosed run, its closing parenthesis and the tokens behind it make up the
  tokens that were searched.
* `spread_arguments`: the arguments of a run, with the commas between them, are as long as the run.
-/

namespace Spreadsheet.Group

/-- Splits tokens at the parenthesis that closes the innermost of `depth + 1` open groups: the
tokens before it, the parenthesis itself, and the tokens behind it. -/
def enclosed? (depth : Nat) : List Token → Option (List Token × Token × List Token)
  | [] => none
  | t :: rest =>
    if t.opens then (enclosed? (depth + 1) rest).map fun (run, r) => (t :: run, r)
    else if t.closes then
      match depth with
      | 0 => some ([], t, rest)
      | depth + 1 => (enclosed? depth rest).map fun (run, r) => (t :: run, r)
    else (enclosed? depth rest).map fun (run, r) => (t :: run, r)

/-- The run enclosed by the group at the front, and the tokens behind the group. -/
def take : List Token → Except ParseFault (List Token × List Token)
  | [] => .error .noGroupAtEnd
  | t :: rest =>
    if !t.opens then .error (.noGroup t.text t.position)
    else match enclosed? 0 rest with
      | some (run, _, behind) => .ok (run, behind)
      | none => .error (.unclosed t.position)

/-- Splits on at the commas outside groups. `current` holds the tokens of the argument that has
begun, the last one first, and `depth` counts the groups that are open in it. -/
def splitFrom (depth : Nat) (current : List Token) :
    List Token → Except ParseFault (List (List Token))
  | [] => if depth = 0 then .ok [current.reverse] else .error .unclosedInArguments
  | t :: rest =>
    if t.opens then splitFrom (depth + 1) (t :: current) rest
    else if t.closes then
      match depth with
      | 0 => .error (.unopened t.position)
      | depth + 1 => splitFrom depth (t :: current) rest
    else if t.separates && depth == 0 then
      if current.isEmpty then .error (.noArgumentBefore t.position)
      else if rest.isEmpty then .error (.noArgumentAfter t.position)
      else (splitFrom 0 [] rest).map (current.reverse :: ·)
    else splitFrom depth (t :: current) rest

/-- The arguments of a run; an empty run has none. -/
def arguments (run : List Token) : Except ParseFault (List (List Token)) :=
  if run.isEmpty then .ok [] else splitFrom 0 [] run

/-! ## Nothing is lost -/

theorem eq_of_enclosed? {depth : Nat} {ts run behind : List Token} {t : Token}
    (h : enclosed? depth ts = some (run, t, behind)) : ts = run ++ t :: behind := by
  fun_induction enclosed? depth ts generalizing run t behind with
  | case1 => cases h
  | case2 depth u rest _ ih =>
    obtain ⟨⟨r, s⟩, hr, he⟩ := Option.map_eq_some_iff.1 h
    cases he
    simp [ih hr]
  | case3 u rest => cases h; rfl
  | case4 u rest _ _ depth ih =>
    obtain ⟨⟨r, s⟩, hr, he⟩ := Option.map_eq_some_iff.1 h
    cases he
    simp [ih hr]
  | case5 depth u rest _ _ ih =>
    obtain ⟨⟨r, s⟩, hr, he⟩ := Option.map_eq_some_iff.1 h
    cases he
    simp [ih hr]

/-- A group is at least two tokens longer than the run that it encloses. -/
theorem length_take {ts run behind : List Token} (h : take ts = .ok (run, behind)) :
    run.length + behind.length + 2 = ts.length := by
  unfold take at h
  split at h
  · cases h
  · split at h
    · cases h
    · split at h
      · next he =>
        cases h
        simp [eq_of_enclosed? he]
        omega
      · cases h

/-- The total length of argument runs, with one more token for each. -/
def spread : List (List Token) → Nat
  | [] => 0
  | arg :: others => arg.length + 1 + spread others

theorem spread_cons (arg : List Token) (others : List (List Token)) :
    spread (arg :: others) = arg.length + 1 + spread others := rfl

theorem spread_splitFrom {depth : Nat} {current ts : List Token} {args : List (List Token)}
    (h : splitFrom depth current ts = .ok args) :
    spread args = current.length + ts.length + 1 := by
  fun_induction splitFrom depth current ts generalizing args with
  | case1 current => cases h; simp [spread]
  | case2 | case4 | case6 | case7 => cases h
  | case3 depth current t rest _ ih => simp [ih h]; omega
  | case5 current t rest _ _ depth ih => simp [ih h]; omega
  | case8 depth current t rest _ _ _ _ _ ih =>
    cases hs : splitFrom 0 [] rest with
    | error e => simp [hs, Except.map] at h
    | ok others =>
      simp only [hs, Except.map, Except.ok.injEq] at h
      subst h
      have := ih hs
      simp only [spread_cons, List.length_reverse, List.length_cons, List.length_nil] at this ⊢
      omega
  | case9 depth current t rest _ _ _ ih => simp [ih h]; omega

/-- The arguments of a run, with the commas between them, are as long as the run. -/
theorem spread_arguments {run : List Token} {args : List (List Token)}
    (h : arguments run = .ok args) : spread args ≤ run.length + 1 := by
  unfold arguments at h
  split at h
  · cases h; simp [spread]
  · simp [spread_splitFrom h]

/-- The run of a group is shorter than the group. -/
theorem length_lt_of_take {ts run behind : List Token} (ht : take ts = .ok (run, behind)) :
    run.length < ts.length := by
  have := length_take ht
  omega

/-- The tokens behind a group are fewer than those that begin with it. -/
theorem length_behind_lt_of_take {ts run behind : List Token}
    (ht : take ts = .ok (run, behind)) : behind.length < ts.length := by
  have := length_take ht
  omega

/-- The arguments of a group are shorter than the group. -/
theorem spread_lt_of_take {ts run behind : List Token} {args : List (List Token)}
    (ht : take ts = .ok (run, behind)) (ha : arguments run = .ok args) :
    spread args < ts.length := by
  have := length_take ht
  have := spread_arguments ha
  omega

end Spreadsheet.Group
