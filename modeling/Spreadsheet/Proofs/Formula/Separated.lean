import Spreadsheet.Proofs.Formula.Reading
import Spreadsheet.Proofs.Formula.Tiling

/-!
# Blanks separate tokens

Each kind of lexeme looks at what stands behind it: words and digits go on as far as they can, a
word is a name or a truth value only where it ends, an anchor makes a function name a cell name, and
an exponent is read only if digits stand behind it. A blank continues none of them. So where a
lexeme stands in front of a text, the same one stands there when the text goes on behind a blank,
and texts with blanks between them have the tokens of both.

## Main results

* `Lexeme.ofChars?_before`: a text that goes on behind a blank begins with the same lexeme.
* `Scan.onward_append`: what can be read is read alike where the text goes on behind a blank.
* `tokenize_append_blanks`: with blanks between two texts, the tokens of the second follow those of
  the first.
-/

namespace Spreadsheet

namespace Lexeme

variable {c : Char} {cs rest : List Char} {l : Lexeme}

/-! ## Characters of a class before other ones -/

/-- Where no character of a class stands directly behind the characters, those of them that belong
to the class do not change. -/
theorem span_before {p : Char → Bool} (h : ∀ c ∈ rest.head?, p c = false) (cs : List Char) :
    (cs ++ rest).takeWhile p = cs.takeWhile p ∧
      (cs ++ rest).dropWhile p = cs.dropWhile p ++ rest := by
  induction cs with
  | nil => exact span_of_head (List.forall_mem_nil _) h
  | cons c others ih =>
    cases hc : p c with
    | true => simpa [hc] using ih
    | false => simp [hc]

theorem head?_before {d : Char} (h : ∀ c ∈ rest.head?, c ≠ d) (cs : List Char) :
    ((cs ++ rest).head? == some d) = (cs.head? == some d) := by
  cases cs with
  | cons c others => rfl
  | nil =>
    cases rest with
    | nil => rfl
    | cons c others => simpa using h c rfl

theorem drop_before {front : List Char} (h : front <+: cs) (rest : List Char) :
    (cs ++ rest).drop front.length = cs.drop front.length ++ rest :=
  List.drop_append_of_le_length h.length_le

/-- A blank is none of the characters that are not. -/
theorem BeforeBlank.ne {d : Char} (h : BeforeBlank rest) (hd : Text.isBlank d = false) :
    ∀ c ∈ rest.head?, c ≠ d := by
  rintro c hc rfl
  rw [h c hc] at hd
  cases hd

/-! ## Symbols and operators before a blank -/

theorem symbol?_before (hne : cs ≠ []) (rest : List Char) : symbol? (cs ++ rest) = symbol? cs := by
  obtain ⟨c, others, rfl⟩ := List.exists_cons_of_ne_nil hne
  rfl

/-- Two characters tell an operator. -/
theorem operator?_cons_cons (c d : Char) (cs cs' : List Char) :
    operator? (c :: d :: cs') = operator? (c :: d :: cs) := by
  by_cases hless : c = '<'
  · by_cases hequal : d = '='
    · rw [hless, hequal]
      rfl
    · by_cases hmore : d = '>'
      · rw [hless, hmore]
        rfl
      · simp [operator?, hless, hequal, hmore]
  · by_cases hmore : c = '>'
    · by_cases hequal : d = '='
      · rw [hmore, hequal]
        rfl
      · simp [operator?, hmore, hequal]
    · simp [operator?, hless, hmore]

theorem operator?_eq_none (h : isOperatorChar c = false) (cs : List Char) :
    operator? (c :: cs) = none := by
  cases hop : operator? (c :: cs) with
  | none => rfl
  | some l =>
    obtain ⟨others, hothers⟩ := front_of_operator? hop
    obtain ⟨_, hchars⟩ := operator?_cases hop
    have hfirst : ∃ d, isOperatorChar d = true ∧ l.chars.head? = some d := by
      rcases hchars with hchars | hchars | hchars | ⟨d, hd, hchars⟩
      · exact ⟨'<', rfl, by rw [hchars]; rfl⟩
      · exact ⟨'>', rfl, by rw [hchars]; rfl⟩
      · exact ⟨'<', rfl, by rw [hchars]; rfl⟩
      · exact ⟨d, hd, by rw [hchars]; rfl⟩
    obtain ⟨d, hd, hhead⟩ := hfirst
    obtain ⟨more, hmore⟩ := List.head?_eq_some_iff.1 hhead
    rw [hmore, List.cons_append] at hothers
    rw [(List.cons.inj hothers).1, h] at hd
    cases hd

theorem operator?_before (hne : cs ≠ []) (hrest : BeforeBlank rest) :
    operator? (cs ++ rest) = operator? cs := by
  obtain ⟨c, others, rfl⟩ := List.exists_cons_of_ne_nil hne
  cases others with
  | cons d more => exact operator?_cons_cons c d more (more ++ rest)
  | nil =>
    cases hc : isOperatorChar c with
    | true =>
      rw [List.singleton_append, operator?_operatorChar hc hrest, operator?_operatorChar hc .nil]
    | false => rw [List.singleton_append, operator?_eq_none hc, operator?_eq_none hc]

/-! ## Names before a blank -/

theorem function?_before (hrest : BeforeBlank rest) (cs : List Char) :
    function? (cs ++ rest) = function? cs := by
  obtain ⟨htake, hdrop⟩ := span_before hrest.ends.not_isAlphanum cs
  have hanchor : ((cs.dropWhile Char.isAlphanum ++ rest).head? == some '$') =
      ((cs.dropWhile Char.isAlphanum).head? == some '$') :=
    head?_before (hrest.ne (by decide)) _
  simp only [function?, htake, hdrop, hanchor]

theorem front_anchor (cs : List Char) : anchor cs <+: cs :=
  ⟨_, anchor_append_drop cs⟩

theorem anchor_before (hrest : BeforeBlank rest) (cs : List Char) :
    anchor (cs ++ rest) = anchor cs := by
  cases cs with
  | nil => exact anchor_of_head (hrest.ne (by decide))
  | cons c others =>
    by_cases hc : c = '$'
    · rw [hc]
      rfl
    · have hnone : ∀ more, anchor (c :: more) = [] := fun more => anchor_of_head (by simpa using hc)
      rw [List.cons_append, hnone, hnone]

theorem cell?_before (hrest : BeforeBlank rest) (cs : List Char) :
    cell? (cs ++ rest) = cell? cs := by
  obtain ⟨hletters, hbehind⟩ := span_before hrest.ends.not_isAlpha (cs.drop (anchor cs).length)
  have hdigits := fun ds => (span_before hrest.ends.not_isDigit ds).1
  simp only [cell?, anchor_before hrest, drop_before (front_anchor _), hletters, hbehind, hdigits]

/-! ## Truth values before a blank -/

/-- A word that the characters are too short for does not go on with a blank. -/
theorem word?_before (b : Bool) (hrest : BeforeBlank rest) (cs : List Char) :
    word? (booleanChars b) (cs ++ rest) = word? (booleanChars b) cs := by
  rcases Nat.lt_or_ge cs.length (booleanChars b).length with hshort | hlong
  · have hnone : word? (booleanChars b) cs = none := by
      have hlength : (cs.take (booleanChars b).length).length ≠ (booleanChars b).length := by
        rw [List.length_take]
        omega
      simp only [word?, hlength, decide_false, Bool.false_and, Bool.false_eq_true, if_false]
    rw [hnone, Option.eq_none_iff_forall_ne_some]
    intro chars hchars
    have hfolds := folds_of_word? hchars
    have hlength := (folds_iff.1 hfolds).1
    obtain ⟨more, hmore⟩ := front_of_word? hchars
    obtain ⟨left, rfl⟩ : cs <+: chars :=
      List.prefix_of_prefix_length_le (List.prefix_append cs rest) ⟨more, hmore⟩ (by omega)
    obtain ⟨c, others, rfl⟩ : ∃ c others, left = c :: others := by
      refine List.exists_cons_of_ne_nil fun hnil => ?_
      rw [hnil, List.append_nil] at hlength
      omega
    rw [List.append_assoc, List.append_cancel_left_eq] at hmore
    have hblank : Text.isBlank c = true := hrest c (by rw [← hmore]; rfl)
    rw [(not_isDigit_of_folds hfolds c (by simp)).2.2] at hblank
    cases hblank
  · have hhead : ((cs.drop (booleanChars b).length ++ rest).head?.any Text.isWordCharacter) =
        (cs.drop (booleanChars b).length).head?.any Text.isWordCharacter := by
      cases cs.drop (booleanChars b).length with
      | cons c others => rfl
      | nil =>
        cases rest with
        | nil => rfl
        | cons c others => exact (hrest.ends c rfl).1
    simp only [word?, List.take_append_of_le_length hlong, List.drop_append_of_le_length hlong,
      hhead]

theorem boolean?_before (hrest : BeforeBlank rest) (cs : List Char) :
    boolean? (cs ++ rest) = boolean? cs := by
  have htrue : word? ['T', 'R', 'U', 'E'] (cs ++ rest) = word? ['T', 'R', 'U', 'E'] cs :=
    word?_before true hrest cs
  have hfalse : word? ['F', 'A', 'L', 'S', 'E'] (cs ++ rest) =
      word? ['F', 'A', 'L', 'S', 'E'] cs := word?_before false hrest cs
  rw [boolean?, htrue, hfalse, ← boolean?]

/-! ## Numbers before a blank -/

theorem fraction_before (hrest : BeforeBlank rest) (cs : List Char) :
    fraction (cs ++ rest) = fraction cs := by
  cases cs with
  | nil => exact fraction_eq_nil (hrest.ne (by decide))
  | cons c others =>
    by_cases hc : c = '.'
    · rw [hc, List.cons_append, fraction, fraction, (span_before hrest.ends.not_isDigit others).1]
    · have hnone : ∀ more, fraction (c :: more) = [] :=
        fun more => fraction_eq_nil (by simpa using hc)
      rw [List.cons_append, hnone, hnone]

theorem sign_before (hrest : BeforeBlank rest) (cs : List Char) : sign (cs ++ rest) = sign cs := by
  have hnone : ∀ more : List Char, (∀ c ∈ more.head?, c ≠ '+' ∧ c ≠ '-') → sign more = [] := by
    intro more hmore
    unfold sign
    split
    · exact absurd rfl (hmore '+' rfl).1
    · exact absurd rfl (hmore '-' rfl).2
    · rfl
  cases cs with
  | nil => exact hnone rest fun c hc => ⟨hrest.ne (by decide) c hc, hrest.ne (by decide) c hc⟩
  | cons c others =>
    by_cases hplus : c = '+'
    · rw [hplus]
      rfl
    · by_cases hminus : c = '-'
      · rw [hminus]
        rfl
      · rw [hnone (c :: others) (by simp [hplus, hminus]), List.cons_append,
          hnone (c :: (others ++ rest)) (by simp [hplus, hminus])]

theorem exponent_before (hrest : BeforeBlank rest) (cs : List Char) :
    exponent (cs ++ rest) = exponent cs := by
  cases cs with
  | nil => exact exponent_eq_nil hrest.ends.not_isAlphanum
  | cons e others =>
    simp only [List.cons_append, exponent, sign_before hrest, drop_before (front_sign others),
      span_before hrest.ends.not_isDigit]

theorem numeral_before (hrest : BeforeBlank rest) (cs : List Char) :
    numeral (cs ++ rest) = numeral cs := by
  simp only [numeral, span_before hrest.ends.not_isDigit, fraction_before hrest,
    drop_before (front_fraction _), exponent_before hrest]

theorem number?_before (hrest : BeforeBlank rest) (cs : List Char) :
    number? (cs ++ rest) = number? cs := by
  simp only [number?, numeral_before hrest]

/-! ## Texts in quotes -/

/-- A quote begins nothing but a text. -/
theorem ofChars?_quote (cs : List Char) : ofChars? ('"' :: cs) = text? ('"' :: cs) := by
  have hmark := no_mark (c := '"') (.inr (.inr rfl)) cs
  have hnumber : number? ('"' :: cs) = none := by
    have hnumeral : numeral ('"' :: cs) = [] := by
      simp [numeral, fraction]
    simp [number?, hnumeral]
  simp only [ofChars?, kinds, List.findSome?_cons, List.findSome?_nil, hmark,
    function?_eq_none (c := '"') rfl, cell?_eq_none (c := '"') rfl (by decide),
    boolean?_eq_none (c := '"') rfl, hnumber]
  cases text? ('"' :: cs) <;> rfl

/-- A text that is closed is read alike whatever stands behind it; one that is not is no lexeme. -/
theorem text?_before (h : ofChars? cs = some l) (rest : List Char) :
    text? (cs ++ rest) = text? cs := by
  obtain ⟨c, others, rfl⟩ : ∃ c others, cs = c :: others :=
    List.exists_cons_of_ne_nil fun hnil => by
      rw [hnil, ofChars?_nil] at h
      cases h
  by_cases hc : c = '"'
  · rw [hc] at h ⊢
    rw [ofChars?_quote] at h
    obtain ⟨more, hmore⟩ := front_of_text? h
    have hread : ofChars? (l.chars ++ (more ++ rest)) = some l := ofChars?_of_text? h
    rw [← List.append_assoc, hmore, List.cons_append, ofChars?_quote] at hread
    rw [List.cons_append, hread, h]
  · rw [List.cons_append, text?_eq_none hc, text?_eq_none hc]

/-! ## All lexemes -/

/-- A text that goes on behind a blank begins with the same lexeme. -/
theorem ofChars?_before (h : ofChars? cs = some l) (hrest : BeforeBlank rest) :
    ofChars? (cs ++ rest) = some l := by
  have hne : cs ≠ [] := by
    rintro rfl
    rw [ofChars?_nil] at h
    cases h
  rw [← h]
  simp only [ofChars?, kinds, List.findSome?_cons, List.findSome?_nil, symbol?_before hne,
    operator?_before hne hrest, function?_before hrest, cell?_before hrest, boolean?_before hrest,
    text?_before h, number?_before hrest]

end Lexeme

/-! ## Tokens further behind -/

/-- A token that stands so many bytes further behind. -/
def Token.shift (n : Nat) (t : Token) : Token :=
  { t with position := n + t.position }

/-- A fault that is so many bytes further behind. -/
def Unreadable.shift (n : Nat) (u : Unreadable) : Unreadable :=
  { u with position := n + u.position }

namespace Scan

variable {position : Nat} {cs gap rest : List Char}

/-- The tokens and the fault of a scan, so many bytes further behind. -/
def shift (n : Nat) (s : Scan) : Scan where
  tokens := s.tokens.map (Token.shift n)
  fault := s.fault.map (Unreadable.shift n)

/-- A text that begins further behind has its tokens further behind. -/
theorem onward_add (n position : Nat) (cs : List Char) :
    onward (n + position) cs = (onward position cs).shift n := by
  fun_induction onward position cs with
  | case1 position cs rest hempty =>
    rw [onward_of_skipBlanks_eq_nil (List.isEmpty_iff.1 hempty)]
    rfl
  | case2 position cs start rest hne hnone =>
    rw [onward_of_none (by simpa using hne) hnone, Nat.add_assoc]
    rfl
  | case3 position cs start rest hne l hl token others ih =>
    rw [onward_of_some hl]
    dsimp only
    rw [Nat.add_assoc, Nat.add_assoc, ih]
    rfl

/-! ## Blanks between two texts -/

/-- Blanks before a text are passed over. -/
theorem onward_gap (hgap : Text.AllBlank gap) (position : Nat) (rest : List Char) :
    onward position (gap ++ rest) = onward (position + byteLength gap) rest := by
  have hskip : Text.skipBlanks (gap ++ rest) = Text.skipBlanks rest :=
    Text.skipBlanks_append hgap rest
  have hstart : position + byteLength ((gap ++ rest).takeWhile Text.isBlank) =
      position + byteLength gap + byteLength (rest.takeWhile Text.isBlank) := by
    rw [List.takeWhile_append_of_pos hgap, byteLength_append, Nat.add_assoc]
  by_cases hnil : Text.skipBlanks rest = []
  · rw [onward_of_skipBlanks_eq_nil hnil, onward_of_skipBlanks_eq_nil (hskip.trans hnil)]
  · cases hl : Lexeme.ofChars? (Text.skipBlanks rest) with
    | none =>
      rw [onward_of_none hnil hl, onward_of_none (hskip.symm ▸ hnil) (hskip.symm ▸ hl), hskip,
        hstart]
    | some l =>
      rw [onward_of_some hl, onward_of_some (hskip.symm ▸ hl), hskip, hstart]

/-- Blanks before a text end where the text begins. -/
theorem skipBlanks_append_of_ne_nil (h : Text.skipBlanks cs ≠ []) (rest : List Char) :
    (cs ++ rest).takeWhile Text.isBlank = cs.takeWhile Text.isBlank ∧
      Text.skipBlanks (cs ++ rest) = Text.skipBlanks cs ++ rest := by
  have hcut := Text.takeWhile_append_skipBlanks cs
  obtain ⟨c, others, hcons⟩ := List.exists_cons_of_ne_nil h
  have hblank : Text.isBlank c = false :=
    Text.not_isBlank_of_head_skipBlanks c (by rw [hcons]; rfl)
  have hrest : ∀ d ∈ (Text.skipBlanks cs ++ rest).head?, Text.isBlank d = false := by
    simpa [hcons] using hblank
  have hspan := Lexeme.span_of_head (Text.allBlank_takeWhile cs) hrest
  rwa [← List.append_assoc, hcut] at hspan

/-- What can be read is read alike where the text goes on behind a blank, and then what follows is
read. By induction on reading: each lexeme is the same one, and behind it less of the text is
left. -/
theorem onward_append (hread : (onward position cs).fault = none) (hgap : Text.AllBlank gap)
    (hne : gap ≠ []) (rest : List Char) :
    onward position (cs ++ (gap ++ rest)) =
      prepend (onward position cs).tokens (onward (position + byteLength (cs ++ gap)) rest) := by
  fun_induction onward position cs with
  | case1 position cs behind hempty =>
    have hblank : Text.AllBlank cs := Text.allBlank_of_skipBlanks (List.isEmpty_iff.1 hempty)
    have hall : Text.AllBlank (cs ++ gap) := fun c hc =>
      (List.mem_append.1 hc).elim (hblank c) (hgap c)
    rw [← List.append_assoc, onward_gap hall]
    rfl
  | case2 position cs start behind _ hnone => cases hread
  | case3 position cs start behind hnot l hl token others ih =>
    have hbehind : Text.skipBlanks cs ≠ [] := by simpa using hnot
    obtain ⟨htake, hskip⟩ := skipBlanks_append_of_ne_nil hbehind (gap ++ rest)
    have hbefore : Lexeme.BeforeBlank (gap ++ rest) := by
      rw [Lexeme.BeforeBlank, List.head?_append_of_ne_nil _ hne]
      exact fun c hc => hgap c (List.mem_of_mem_head? hc)
    have hplace : start + byteLength l.chars +
        byteLength (behind.drop l.chars.length ++ gap) = position + byteLength (cs ++ gap) := by
      have hbytes : byteLength cs = byteLength (cs.takeWhile Text.isBlank) +
          (byteLength l.chars + byteLength (behind.drop l.chars.length)) := by
        rw [← byteLength_append, Lexeme.chars_append_drop hl, ← byteLength_append,
          Text.takeWhile_append_skipBlanks]
      simp only [byteLength_append, hbytes, start]
      omega
    rw [onward_of_some (hskip.symm ▸ Lexeme.ofChars?_before hl hbefore)]
    dsimp only
    rw [htake, hskip, Lexeme.drop_before (Lexeme.front_of_ofChars? hl), ih hread, hplace]
    rfl

end Scan

/-! ## Texts -/

section Texts

variable {text gap : String} {tokens : List Token}

/-- A text is a list of tokens where its scan has no fault. -/
theorem tokenize_eq_ok_iff : tokenize text = .ok tokens ↔ Scan.ofText text = ⟨tokens, none⟩ := by
  rw [tokenize]
  cases hscan : Scan.ofText text with
  | mk found fault => cases fault <;> simp

theorem tokenize_eq_error_iff {position : Nat} {fragment : String} :
    tokenize text = .error (.lex position fragment) ↔
      (Scan.ofText text).fault = some ⟨position, fragment⟩ := by
  rw [tokenize]
  cases hscan : Scan.ofText text with
  | mk found fault =>
    cases fault with
    | none => simp
    | some u =>
      obtain ⟨position', fragment'⟩ := u
      simp

/-- Behind blanks, the scan of a second text follows the tokens of the first. -/
theorem Scan.ofText_append_blanks (h : tokenize text = .ok tokens) (hne : gap ≠ "")
    (hgap : Text.AllBlank gap.toList) (rest : String) :
    ofText (text ++ gap ++ rest) =
      prepend tokens ((ofText rest).shift (text ++ gap).utf8ByteSize) := by
  have hread : onward 0 text.toList = ⟨tokens, none⟩ := tokenize_eq_ok_iff.1 h
  have hfault : (onward 0 text.toList).fault = none := by rw [hread]
  have hnil : gap.toList ≠ [] := by simpa using hne
  have hwhole := onward_append hfault hgap hnil rest.toList
  rw [ofText, String.toList_append, String.toList_append, List.append_assoc, hwhole, hread,
    Nat.zero_add, ← String.toList_append, byteLength_toList]
  exact congrArg (prepend tokens) (onward_add _ 0 rest.toList)

/-- With blanks between two texts of which the first can be read, the tokens of the second follow
those of the first, further behind by the bytes of all that stands before them; and where the second
text is at fault, so is the whole. -/
theorem tokenize_append_blanks (h : tokenize text = .ok tokens) (hne : gap ≠ "")
    (hgap : Text.AllBlank gap.toList) (rest : String) :
    (∀ others, tokenize rest = .ok others →
      tokenize (text ++ gap ++ rest) =
        .ok (tokens ++ others.map (Token.shift (text ++ gap).utf8ByteSize))) ∧
    (∀ position fragment, tokenize rest = .error (.lex position fragment) →
      tokenize (text ++ gap ++ rest) =
        .error (.lex ((text ++ gap).utf8ByteSize + position) fragment)) ∧
    ((∃ e, tokenize (text ++ gap ++ rest) = .error e) ↔ ∃ e, tokenize rest = .error e) := by
  have hscan := Scan.ofText_append_blanks h hne hgap rest
  have hok : ∀ others, tokenize rest = .ok others →
      tokenize (text ++ gap ++ rest) =
        .ok (tokens ++ others.map (Token.shift (text ++ gap).utf8ByteSize)) := by
    intro others hothers
    rw [tokenize_eq_ok_iff] at hothers ⊢
    rw [hscan, hothers]
    rfl
  have herror : ∀ position fragment, tokenize rest = .error (.lex position fragment) →
      tokenize (text ++ gap ++ rest) =
        .error (.lex ((text ++ gap).utf8ByteSize + position) fragment) := by
    intro position fragment hfault
    rw [tokenize_eq_error_iff] at hfault ⊢
    rw [hscan, Scan.prepend, Scan.shift, hfault]
    rfl
  refine ⟨hok, herror, ?_, ?_⟩
  · rintro ⟨e, he⟩
    cases hrest : tokenize rest with
    | ok others =>
      rw [hok others hrest] at he
      cases he
    | error e' => exact ⟨e', rfl⟩
  · rintro ⟨e, he⟩
    obtain ⟨position, fragment, rfl⟩ := exists_of_tokenize_error he
    exact ⟨_, herror position fragment he⟩

end Texts

/-- A comparison sign at the end of a text, and an equals sign behind a no-break space: they stay
two tokens. A fault behind the blank is one of the whole text. -/
theorem tokenize_lessThan_blank :
    tokenize "\"é\"<" = .ok [⟨.constant, "\"é\"", some (.text "é"), 0⟩, ⟨.operator, "<", none, 4⟩] ∧
      tokenize ("\"é\"<" ++ "\u00A0 " ++ "=LOG10") =
        .ok [⟨.constant, "\"é\"", some (.text "é"), 0⟩, ⟨.operator, "<", none, 4⟩,
          ⟨.operator, "=", none, 8⟩, ⟨.function, "LOG10", none, 9⟩] ∧
      tokenize ("\"é\"<" ++ "\u00A0 " ++ "1e") = .error (.lex 9 "e") := by
  have hfirst : tokenize "\"é\"<" =
      .ok [⟨.constant, "\"é\"", some (.text "é"), 0⟩, ⟨.operator, "<", none, 4⟩] := by
    decide +kernel
  have hall : "\u00A0 ".toList.all Text.isBlank = true := by decide +kernel
  have hblank : Text.AllBlank "\u00A0 ".toList := List.all_eq_true.1 hall
  have hbytes : ("\"é\"<" ++ "\u00A0 ").utf8ByteSize = 8 := by decide +kernel
  obtain ⟨hok, _, _⟩ := tokenize_append_blanks hfirst (by decide) hblank "=LOG10"
  obtain ⟨_, herror, _⟩ := tokenize_append_blanks hfirst (by decide) hblank "1e"
  rw [hbytes] at hok herror
  exact ⟨hfirst, hok [⟨.operator, "=", none, 0⟩, ⟨.function, "LOG10", none, 1⟩] (by decide +kernel),
    herror 1 "e" (by decide +kernel)⟩

end Spreadsheet
