import Spreadsheet.Proofs.Formula.Slices
import Spreadsheet.Proofs.Formula.Spacing

/-!
# The tokens of a text tile it

A text can be read token by token, as a reader does that is asked again and again. Its answers are
the tokens of the text, then the fault if there is one, and then nothing. The tokens are slices of
the text that do not overlap, and outside them there are only blanks, up to the end of the text or
up to the fault.

Both halves meet at `Tiled`, the cut of a text into blanks, tokens and a fault: the scan of a text
makes such a cut, and what is said of tokens and faults holds of every such cut, by induction on it.

## Main results

* `Reader.answer_eq`: the answers of a reader are the tokens, the fault, and then nothing.
* `tiled_onward`: a scan cuts the text into blanks, tokens and a fault.
* `Scan.tiles_ofText`: the tokens of a text tile it, as far as a reader gets.
-/

namespace Spreadsheet

/-! ## Reading token by token -/

/-- A reader of a text: the byte offset that it has come to, what is left of the text there, and
whether it has met a fault. -/
structure Reader where
  position : Nat
  left : List Char
  failed : Bool := false

/-- All that a scan has to give: its tokens, and the fault behind them. -/
def Scan.outcomes (s : Scan) : List (Except Unreadable Token) :=
  s.tokens.map .ok ++ s.fault.toList.map .error

namespace Reader

/-- A reader at the beginning of a text. -/
def ofText (text : String) : Reader where
  position := 0
  left := text.toList

/-- Asks a reader for the next token. It answers with a token or a fault, or with nothing at the end
of the text and behind a fault; with the answer comes the reader as it is then. -/
def next (r : Reader) : Option (Except Unreadable Token) × Reader :=
  if r.failed then (none, r)
  else
    let start := r.position + Scan.byteLength (r.left.takeWhile Text.isBlank)
    let rest := Text.skipBlanks r.left
    if rest.isEmpty then (none, ⟨start, rest, false⟩)
    else
      match Lexeme.ofChars? rest with
      | none =>
        (some (.error ⟨start, String.ofList (rest.takeWhile (!Text.isBlank ·))⟩),
          ⟨start, rest, true⟩)
      | some l =>
        (some (.ok (l.token start)),
          ⟨start + Scan.byteLength l.chars, rest.drop l.chars.length, false⟩)

/-- The answer of a reader when it is asked for the `n + 1`st time. -/
def answer (r : Reader) : Nat → Option (Except Unreadable Token)
  | 0 => r.next.1
  | n + 1 => r.next.2.answer n

/-- Behind a fault a reader has no answer. -/
theorem answer_of_failed {r : Reader} (h : r.failed = true) (n : Nat) : r.answer n = none := by
  have hnext : r.next = (none, r) := if_pos h
  induction n with
  | zero => rw [answer, hnext]
  | succ n ih => rw [answer, hnext, ih]

/-- The answers of a reader are the tokens of what is left, the fault, and then nothing. -/
theorem answer_eq (position : Nat) (left : List Char) (n : Nat) :
    (⟨position, left, false⟩ : Reader).answer n = (Scan.onward position left).outcomes[n]? := by
  induction n generalizing position left with
  | zero =>
    rw [answer, Scan.onward]
    simp only [next, Bool.false_eq_true, if_false]
    split
    · rfl
    · cases hl : Lexeme.ofChars? (Text.skipBlanks left) with
      | none => rfl
      | some l => rfl
  | succ n ih =>
    rw [answer, Scan.onward]
    simp only [next, Bool.false_eq_true, if_false]
    split
    · next hempty =>
      have hskip : Text.skipBlanks (Text.skipBlanks left) = [] := by
        rw [List.isEmpty_iff.1 hempty]
        rfl
      have hend := ih (position + Scan.byteLength (left.takeWhile Text.isBlank))
        (Text.skipBlanks left)
      rw [Scan.onward_of_skipBlanks_eq_nil hskip] at hend
      exact hend
    · cases hl : Lexeme.ofChars? (Text.skipBlanks left) with
      | none => exact answer_of_failed rfl n
      | some l => exact ih _ _

theorem answer_ofText (text : String) (n : Nat) :
    (ofText text).answer n = (Scan.ofText text).outcomes[n]? :=
  answer_eq 0 text.toList n

end Reader

/-! ## Texts cut into blanks, tokens and a fault -/

/-- The byte offset behind a token. -/
def Token.stop (t : Token) : Nat :=
  t.position + t.text.utf8ByteSize

/-- Characters from a byte offset on, cut into pieces: blanks and tokens in turn, and behind the
last blanks the end or a fault. -/
inductive Tiled : Nat → List Char → Scan → Prop
  | blank {position : Nat} {cs : List Char} (h : Text.AllBlank cs) : Tiled position cs ⟨[], none⟩
  | fault {position : Nat} {gap fragment rest : List Char} (hgap : Text.AllBlank gap)
    (hne : fragment ≠ []) (hfragment : ∀ c ∈ fragment, Text.isBlank c = false)
    (hrest : Lexeme.BeforeBlank rest) :
    Tiled position (gap ++ (fragment ++ rest))
      ⟨[], some ⟨position + Scan.byteLength gap, String.ofList fragment⟩⟩
  | token {position : Nat} {gap rest : List Char} {t : Token} {s : Scan}
    (hgap : Text.AllBlank gap) (hne : t.text ≠ "")
    (hposition : t.position = position + Scan.byteLength gap) (h : Tiled t.stop rest s) :
    Tiled position (gap ++ (t.text.toList ++ rest)) ⟨t :: s.tokens, s.fault⟩

/-! ### A scan makes such a cut -/

namespace Text

theorem allBlank_takeWhile (cs : List Char) : AllBlank (cs.takeWhile isBlank) :=
  fun _ hc => List.mem_takeWhile_imp hc

theorem takeWhile_append_skipBlanks (cs : List Char) :
    cs.takeWhile isBlank ++ skipBlanks cs = cs :=
  List.takeWhile_append_dropWhile

theorem allBlank_of_skipBlanks {cs : List Char} (h : skipBlanks cs = []) : AllBlank cs := by
  have hcut := takeWhile_append_skipBlanks cs
  rw [h, List.append_nil] at hcut
  exact hcut ▸ allBlank_takeWhile cs

theorem not_isBlank_of_head_skipBlanks {cs : List Char} :
    ∀ c ∈ (skipBlanks cs).head?, isBlank c = false := by
  intro c hc
  have hhead := List.head?_dropWhile_not isBlank cs
  rwa [← skipBlanks, Option.mem_def.1 hc] at hhead

/-- Characters up to the next blank, and what stands behind them. -/
theorem cut_at_blank (cs : List Char) :
    (∀ c ∈ cs.takeWhile (!isBlank ·), isBlank c = false) ∧
      Lexeme.BeforeBlank (cs.dropWhile (!isBlank ·)) := by
  constructor
  · intro c hc
    simpa using List.mem_takeWhile_imp hc
  · intro c hc
    have hhead := List.head?_dropWhile_not (!isBlank ·) cs
    rw [Option.mem_def.1 hc] at hhead
    simpa using hhead

end Text

/-- A scan cuts the text into blanks, tokens and a fault. -/
theorem tiled_onward (position : Nat) (cs : List Char) :
    Tiled position cs (Scan.onward position cs) := by
  fun_induction Scan.onward position cs with
  | case1 position cs rest hempty =>
    exact .blank (Text.allBlank_of_skipBlanks (List.isEmpty_iff.1 hempty))
  | case2 position cs start rest hne hnone =>
    obtain ⟨hfragment, hrest⟩ := Text.cut_at_blank rest
    have hfirst : rest.takeWhile (!Text.isBlank ·) ≠ [] := by
      have hhead : ∀ c ∈ (Text.skipBlanks cs).head?, Text.isBlank c = false :=
        Text.not_isBlank_of_head_skipBlanks
      obtain ⟨c, others, hcons⟩ := List.exists_cons_of_ne_nil (by simpa using hne : rest ≠ [])
      rw [show Text.skipBlanks cs = c :: others from hcons] at hhead
      simp [hcons, hhead c rfl]
    have hcut : cs.takeWhile Text.isBlank ++ (rest.takeWhile (!Text.isBlank ·) ++
        rest.dropWhile (!Text.isBlank ·)) = cs := by
      rw [List.takeWhile_append_dropWhile, Text.takeWhile_append_skipBlanks]
    have htiled : Tiled position _ _ :=
      .fault (Text.allBlank_takeWhile cs) hfirst hfragment hrest
    rwa [hcut] at htiled
  | case3 position cs start rest hne l hl token others ih =>
    have hstop : token.stop = start + Scan.byteLength l.chars := by
      rw [Token.stop, Scan.utf8ByteSize_ofList]
    have htext : token.text ≠ "" := by
      rw [← String.ofList_nil, ne_eq, String.ofList_inj]
      exact Lexeme.ofChars?_ne_nil hl
    have hothers : Tiled token.stop (rest.drop l.chars.length) others := hstop ▸ ih
    have hcut : cs.takeWhile Text.isBlank ++ (token.text.toList ++ rest.drop l.chars.length) =
        cs := by
      rw [String.toList_ofList, Lexeme.chars_append_drop hl, Text.takeWhile_append_skipBlanks]
    have htiled : Tiled position _ _ :=
      .token (Text.allBlank_takeWhile cs) htext rfl hothers
    rwa [hcut] at htiled

/-! ### What holds of every cut -/

/-- A character of two lists one behind the other stands in the first or in the second. -/
theorem mem_or_behind_of_append {α : Type} {xs ys before after : List α} {x : α}
    (h : xs ++ ys = before ++ x :: after) :
    (∃ more, xs = before ++ x :: more) ∨ ∃ more, before = xs ++ more ∧ ys = more ++ x :: after := by
  rcases List.append_eq_append_iff.1 h with ⟨more, hbefore, hys⟩ | ⟨more, hxs, hafter⟩
  · exact .inr ⟨more, hbefore, hys⟩
  · cases more with
    | nil => exact .inr ⟨[], by simpa using hxs.symm, by simpa using hafter.symm⟩
    | cons y others =>
      obtain ⟨rfl, -⟩ := List.cons.inj hafter
      exact .inl ⟨others, hxs⟩

namespace Tiled

variable {position : Nat} {cs : List Char} {s : Scan}

/-- Tokens are slices of the text at the offsets that they bear. -/
theorem slice (h : Tiled position cs s) {t : Token} (ht : t ∈ s.tokens) :
    t.text ≠ "" ∧ ∃ before after, cs = before ++ (t.text.toList ++ after) ∧
      t.position = position + Scan.byteLength before := by
  induction h with
  | blank _ => cases ht
  | fault _ _ _ _ => cases ht
  | @token position gap rest t' s hgap hne hposition h ih =>
    rcases List.mem_cons.1 ht with rfl | hothers
    · exact ⟨hne, gap, rest, rfl, hposition⟩
    · obtain ⟨htext, before, after, rfl, hplace⟩ := ih hothers
      refine ⟨htext, gap ++ (t'.text.toList ++ before), after, by simp, ?_⟩
      rw [hplace, Token.stop, hposition, Scan.byteLength_append, Scan.byteLength_append,
        Scan.byteLength_toList]
      omega

theorem le_position (h : Tiled position cs s) {t : Token} (ht : t ∈ s.tokens) :
    position ≤ t.position := by
  obtain ⟨_, before, _, _, hplace⟩ := h.slice ht
  omega

/-- No token begins before the one in front of it has ended. -/
theorem apart (h : Tiled position cs s) :
    s.tokens.Pairwise fun t u => t.stop ≤ u.position := by
  induction h with
  | blank _ => exact .nil
  | fault _ _ _ _ => exact .nil
  | token _ _ _ h ih => exact .cons (fun u hu => h.le_position hu) ih

/-- Where a fault is, no token stands any more, and up to the next blank nothing can be read. -/
theorem fault_spec (h : Tiled position cs s) {u : Unreadable} (hu : u ∈ s.fault) :
    (∀ t ∈ s.tokens, t.stop ≤ u.position) ∧ u.fragment ≠ "" ∧
      (∀ c ∈ u.fragment.toList, Text.isBlank c = false) ∧
      ∃ before after, cs = before ++ (u.fragment.toList ++ after) ∧
        u.position = position + Scan.byteLength before ∧ Lexeme.BeforeBlank after := by
  induction h with
  | blank _ => cases hu
  | @fault position gap fragment rest _ hne hfragment hrest =>
    cases hu
    refine ⟨List.forall_mem_nil _, ?_, ?_, gap, rest, ?_, rfl, hrest⟩
    · rwa [← String.ofList_nil, ne_eq, String.ofList_inj]
    · rwa [String.toList_ofList]
    · rw [String.toList_ofList]
  | @token position gap rest t s _ _ hposition h ih =>
    obtain ⟨hbehind, hne, hfragment, before, after, rfl, hplace, hafter⟩ := ih hu
    refine ⟨List.forall_mem_cons.2 ⟨by omega, hbehind⟩, hne, hfragment,
      gap ++ (t.text.toList ++ before), after, by simp, ?_, hafter⟩
    rw [hplace, Token.stop, hposition, Scan.byteLength_append, Scan.byteLength_append,
      Scan.byteLength_toList]
    omega

/-- A character that is in no token and before the fault is a blank. -/
theorem blank_outside (h : Tiled position cs s) {before after : List Char} {c : Char}
    (hcs : cs = before ++ c :: after)
    (htokens : ∀ t ∈ s.tokens, position + Scan.byteLength before < t.position ∨
      t.stop ≤ position + Scan.byteLength before)
    (hfault : ∀ u ∈ s.fault, position + Scan.byteLength before < u.position) :
    Text.isBlank c = true := by
  induction h generalizing before with
  | blank h => exact h c (by simp [hcs])
  | @fault position gap fragment rest hgap _ _ _ =>
    rcases mem_or_behind_of_append hcs with ⟨more, hmore⟩ | ⟨more, rfl, -⟩
    · exact hgap c (by simp [hmore])
    · have hbefore := hfault _ rfl
      rw [Scan.byteLength_append] at hbefore
      dsimp only at hbefore
      omega
  | @token position gap rest t s hgap _ hposition _ ih =>
    rcases mem_or_behind_of_append hcs with ⟨more, hmore⟩ | ⟨more, rfl, hmore⟩
    · exact hgap c (by simp [hmore])
    obtain ⟨hfirst, hothers⟩ := List.forall_mem_cons.1 htokens
    rcases mem_or_behind_of_append hmore with ⟨left, hleft⟩ | ⟨left, rfl, hrest⟩
    -- The character lies in the token.
    · have hsize : t.text.utf8ByteSize = Scan.byteLength more + Scan.byteLength (c :: left) := by
        rw [← Scan.byteLength_toList, hleft, Scan.byteLength_append]
      have hpos : 0 < Scan.byteLength (c :: left) := Scan.byteLength_pos (by simp)
      rw [Scan.byteLength_append, Token.stop] at hfirst
      omega
    -- The character lies behind the token.
    · have hplace : position + Scan.byteLength (gap ++ (t.text.toList ++ left)) =
          t.stop + Scan.byteLength left := by
        rw [Token.stop, hposition, Scan.byteLength_append, Scan.byteLength_append,
          Scan.byteLength_toList]
        omega
      rw [hplace] at hothers hfault
      exact ih hrest hothers hfault

end Tiled

/-! ## The tokens of a text -/

/-- A piece of a text stands in it at a byte offset. -/
def Text.StandsAt (text piece : String) (position : Nat) : Prop :=
  ∃ before after : String, text = before ++ piece ++ after ∧ before.utf8ByteSize = position

/-- The tokens of a scan are slices of a text, one behind another and apart, and outside them there
is nothing but blanks, up to the end or up to the fault. The fault is at the first character behind
the tokens that is not blank, and its fragment goes up to the next blank. -/
structure Scan.Tiles (s : Scan) (text : String) : Prop where
  nonempty : ∀ t ∈ s.tokens, t.text ≠ ""
  slice : ∀ t ∈ s.tokens, Text.StandsAt text t.text t.position
  increasing : s.tokens.Pairwise fun t u => t.position < u.position
  apart : s.tokens.Pairwise fun t u => t.stop ≤ u.position
  blank_outside : ∀ c position, Text.StandsAt text (String.singleton c) position →
    (∀ t ∈ s.tokens, position < t.position ∨ t.stop ≤ position) →
    (∀ u ∈ s.fault, position < u.position) → Text.isBlank c = true
  fault_behind : ∀ u ∈ s.fault, ∀ t ∈ s.tokens, t.stop ≤ u.position
  fault_first : ∀ u ∈ s.fault, ∀ c position, Text.StandsAt text (String.singleton c) position →
    (∀ t ∈ s.tokens, t.stop ≤ position) → Text.isBlank c = false → u.position ≤ position
  fault_fragment : ∀ u ∈ s.fault, u.fragment ≠ "" ∧
    (∀ c ∈ u.fragment.toList, Text.isBlank c = false) ∧
    ∃ before after : String, text = before ++ u.fragment ++ after ∧
      before.utf8ByteSize = u.position ∧ ∀ c ∈ after.toList.head?, Text.isBlank c = true

namespace Tiled

variable {text : String} {s : Scan}

/-- Pieces of the characters of a text are pieces of the text. -/
theorem eq_append_of_toList {piece : String} {before after : List Char}
    (h : text.toList = before ++ (piece.toList ++ after)) :
    text = String.ofList before ++ piece ++ String.ofList after := by
  rw [← String.toList_inj]
  simpa using h

theorem tiles (h : Tiled 0 text.toList s) : s.Tiles text := by
  have houtside : ∀ c position, Text.StandsAt text (String.singleton c) position →
      (∀ t ∈ s.tokens, position < t.position ∨ t.stop ≤ position) →
      (∀ u ∈ s.fault, position < u.position) → Text.isBlank c = true := by
    rintro c position ⟨before, after, htext, rfl⟩ htokens hfault
    have hcs : text.toList = before.toList ++ c :: after.toList := by simp [htext]
    refine h.blank_outside hcs ?_ ?_ <;> rwa [Nat.zero_add, Scan.byteLength_toList]
  exact {
    nonempty := fun t ht => (h.slice ht).1
    slice := by
      intro t ht
      obtain ⟨_, before, after, hcut, hplace⟩ := h.slice ht
      refine ⟨_, _, eq_append_of_toList hcut, ?_⟩
      rw [Scan.utf8ByteSize_ofList, hplace, Nat.zero_add]
    increasing := by
      refine h.apart.imp_of_mem fun {t u} ht _ hle => ?_
      have hpos : 0 < t.text.utf8ByteSize :=
        Nat.pos_of_ne_zero fun hzero => (h.slice ht).1 (String.utf8ByteSize_eq_zero_iff.1 hzero)
      rw [Token.stop] at hle
      omega
    apart := h.apart
    blank_outside := houtside
    fault_behind := fun u hu => (h.fault_spec hu).1
    fault_first := by
      intro u hu c position hc htokens hblank
      by_contra hbefore
      have hfault : ∀ u' ∈ s.fault, position < u'.position := by
        intro u' hu'
        rw [Option.mem_unique hu' hu]
        omega
      rw [houtside c position hc (fun t ht => .inr (htokens t ht)) hfault] at hblank
      cases hblank
    fault_fragment := by
      intro u hu
      obtain ⟨_, hne, hfragment, before, after, hcut, hplace, hafter⟩ := h.fault_spec hu
      refine ⟨hne, hfragment, _, _, eq_append_of_toList hcut, ?_, ?_⟩
      · rw [Scan.utf8ByteSize_ofList, hplace, Nat.zero_add]
      · rwa [String.toList_ofList] }

end Tiled

/-- The tokens of a text tile it. A reader of the text answers with these tokens, then with the
fault if there is one, and then never again. -/
theorem Scan.tiles_ofText (text : String) :
    (∀ n, (Reader.ofText text).answer n = (ofText text).outcomes[n]?) ∧
      (ofText text).Tiles text :=
  ⟨Reader.answer_ofText text, (tiled_onward 0 text.toList).tiles⟩

/-- A text with a character of two bytes in quotes, so that its cell begins at byte 7, and with a
sign that begins no token: a reader answers with three tokens, with a fault, and with nothing. -/
theorem Scan.tiles_accentText :
    (ofText "\"é\" & A1 ÷2 x").tokens =
      [⟨.constant, "\"é\"", some (.text "é"), 0⟩, ⟨.operator, "&", none, 5⟩,
        ⟨.cell, "A1", none, 7⟩] ∧
      (ofText "\"é\" & A1 ÷2 x").fault = some ⟨10, "÷2"⟩ ∧
      (ofText "\"é\" & A1 ÷2 x").Tiles "\"é\" & A1 ÷2 x" ∧
      (Reader.ofText "\"é\" & A1 ÷2 x").answer 4 = none := by
  obtain ⟨hanswer, htiles⟩ := tiles_ofText "\"é\" & A1 ÷2 x"
  have htokens : (ofText "\"é\" & A1 ÷2 x").tokens =
      [⟨.constant, "\"é\"", some (.text "é"), 0⟩, ⟨.operator, "&", none, 5⟩,
        ⟨.cell, "A1", none, 7⟩] := by decide +kernel
  have hfault : (ofText "\"é\" & A1 ÷2 x").fault = some ⟨10, "÷2"⟩ := by decide +kernel
  refine ⟨htokens, hfault, htiles, ?_⟩
  rw [hanswer, outcomes, htokens, hfault]
  rfl

end Spreadsheet
