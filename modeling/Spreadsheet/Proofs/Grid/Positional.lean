import Spreadsheet.Grid.Address
import Spreadsheet.Proofs.Text.Blanks
import Mathlib.Data.List.Induction
import Mathlib.Data.Nat.Digits.Defs

/-!
# Letters and digits

Column letters and row digits are both positional notation: the letters in base 26 with digits from
1 to 26, the row in base 10. They are read from the left, and letters are refused at the first one
that takes the number beyond the grid. As more letters only make the number larger, this is the same
as to read them all and to look at the result.

## Main results

* `Text.apply_toUpper`: what a letter has in common with its other case.
* `Column.number_digits`: the letters of a number denote that number.
* `Column.ofLetters_eq_ok_iff`, `Address.readRow_eq_ok_iff`: letters and digits are read if and only
  if their number lies in the grid.
-/

namespace Spreadsheet

/-! ## Letters and digits -/

namespace Text

variable {c : Char}

theorem toNat_of_isAlpha (h : c.isAlpha = true) :
    65 ≤ c.toNat ∧ c.toNat ≤ 90 ∨ 97 ≤ c.toNat ∧ c.toNat ≤ 122 := by
  rcases Bool.or_eq_true_iff.1 h with hupper | hlower
  · obtain ⟨hfrom, hto⟩ := of_decide_eq_true hupper
    exact .inl ⟨UInt32.le_iff_toNat_le.1 hfrom, UInt32.le_iff_toNat_le.1 hto⟩
  · obtain ⟨hfrom, hto⟩ := Bool.and_eq_true_iff.1 hlower
    exact .inr ⟨UInt32.le_iff_toNat_le.1 (of_decide_eq_true hfrom),
      UInt32.le_iff_toNat_le.1 (of_decide_eq_true hto)⟩

theorem toNat_of_isDigit (h : c.isDigit = true) : 48 ≤ c.toNat ∧ c.toNat ≤ 57 := by
  simpa using Char.isDigit_iff_toNat.1 h

theorem not_isBlank_of_isAlpha (h : c.isAlpha = true) : isBlank c = false := by
  have := toNat_of_isAlpha h
  simp [isBlank]
  omega

theorem not_isBlank_of_isDigit (h : c.isDigit = true) : isBlank c = false := by
  have := toNat_of_isDigit h
  simp [isBlank]
  omega

theorem not_isBlank_of_isAlphanum (h : c.isAlphanum = true) : isBlank c = false := by
  rcases Bool.or_eq_true_iff.1 h with halpha | hdigit
  · exact not_isBlank_of_isAlpha halpha
  · exact not_isBlank_of_isDigit hdigit

theorem not_isAlpha_of_isDigit (h : c.isDigit = true) : c.isAlpha = false := by
  by_contra halpha
  have := toNat_of_isDigit h
  have := toNat_of_isAlpha (by simpa using halpha)
  omega

theorem ne_anchor_of_isAlpha (h : c.isAlpha = true) : c ≠ '$' := by
  rintro rfl
  cases h

theorem ne_anchor_of_isDigit (h : c.isDigit = true) : c ≠ '$' := by
  rintro rfl
  cases h

/-- What a letter has in common with its other case is not changed by making letters capital. -/
theorem apply_toUpper {β : Type} (f : Char → β)
    (h : ∀ k < 26, f (Char.ofNat (65 + k)) = f (Char.ofNat (97 + k))) (c : Char) :
    f c.toUpper = f c := by
  have hcapital : ∀ k < 26, (Char.ofNat (97 + k)).toUpper = Char.ofNat (65 + k) := by decide
  by_cases hsmall : 97 ≤ c.toNat ∧ c.toNat ≤ 122
  · obtain ⟨k, hk⟩ : ∃ k, c.toNat = 97 + k := ⟨c.toNat - 97, by omega⟩
    have hc : c = Char.ofNat (97 + k) := by rw [← hk, Char.ofNat_toNat]
    rw [hc, hcapital k (by omega), h k (by omega)]
  · have hsame : c.toUpper = c := by
      refine dif_neg fun hbounds => hsmall ?_
      have hfrom : 97 ≤ c.toNat := UInt32.le_iff_toNat_le.1 hbounds.1
      have hto : c.toNat ≤ 122 := UInt32.le_iff_toNat_le.1 hbounds.2
      exact ⟨hfrom, hto⟩
    rw [hsame]

theorem isAlpha_toUpper (c : Char) : c.toUpper.isAlpha = c.isAlpha :=
  apply_toUpper Char.isAlpha (by decide) c

theorem isDigit_toUpper (c : Char) : c.toUpper.isDigit = c.isDigit :=
  apply_toUpper Char.isDigit (by decide) c

theorem toUpper_toUpper (c : Char) : c.toUpper.toUpper = c.toUpper :=
  apply_toUpper Char.toUpper (by decide) c

/-- A character that is no letter is the capital form of nothing but itself. -/
theorem toUpper_eq_iff {d : Char} (hd : d.isAlpha = false) : c.toUpper = d ↔ c = d := by
  have hletters : ∀ k < 26, (Char.ofNat (65 + k)).isAlpha = true ∧
      (Char.ofNat (97 + k)).isAlpha = true := by decide
  have hne : ∀ k < 26, Char.ofNat (65 + k) ≠ d ∧ Char.ofNat (97 + k) ≠ d := by
    intro k hk
    obtain ⟨hcapital, hsmall⟩ := hletters k hk
    constructor
    · rintro rfl
      rw [hcapital] at hd
      cases hd
    · rintro rfl
      rw [hsmall] at hd
      cases hd
  have hsame := apply_toUpper (fun c => decide (c = d)) (fun k hk => by simp [hne k hk]) c
  simpa using hsame

theorem toUpper_of_isDigit (h : c.isDigit = true) : c.toUpper = c :=
  (toUpper_eq_iff (not_isAlpha_of_isDigit h)).2 rfl

theorem map_toUpper_of_isDigit {cs : List Char} (h : ∀ c ∈ cs, c.isDigit = true) :
    cs.map Char.toUpper = cs :=
  (List.map_congr_left fun c hc => toUpper_of_isDigit (h c hc)).trans (List.map_id _)

theorem sameName_iff {s t : String} :
    sameName s t = true ↔ t.toList.map Char.toUpper = s.toList.map Char.toUpper := by
  rw [sameName, beq_iff_eq, upperAscii, upperAscii, String.ofList_inj]
  exact eq_comm

end Text

/-! ## Positional notation -/

/-- The number that characters denote in positional notation, the last one counting the ones. -/
def positional (base : Nat) (value : Char → Nat) (cs : List Char) : Nat :=
  Nat.ofDigits base (cs.map value).reverse

section Positional

variable {base : Nat} {value : Char → Nat}

theorem positional_cons (c : Char) (cs : List Char) :
    positional base value (c :: cs) = value c * base ^ cs.length + positional base value cs := by
  rw [positional, List.map_cons, Nat.ofDigits_reverse_cons, List.length_map, Nat.mul_comm,
    Nat.add_comm]
  rfl

theorem positional_concat (cs : List Char) (c : Char) :
    positional base value (cs ++ [c]) = base * positional base value cs + value c := by
  rw [positional, List.map_append, List.reverse_append, List.map_singleton,
    List.reverse_singleton, List.singleton_append, Nat.ofDigits_cons, Nat.add_comm]
  rfl

/-- Reading from the left: each character multiplies what stands before it by the base. By
induction on the characters from their end. -/
theorem foldl_eq_positional (cs : List Char) :
    cs.foldl (fun n c => base * n + value c) 0 = positional base value cs := by
  induction cs using List.reverseRecOn with
  | nil => rfl
  | append_singleton cs c ih =>
    rw [List.foldl_append, ih, positional_concat]
    rfl

end Positional

/-! ## Letters of a column -/

namespace Column

variable {letters : List Char} {col : Nat}

/-- The number that column letters denote. -/
def number (letters : List Char) : Nat :=
  positional 26 digitValue letters

theorem number_pos (h : letters ≠ []) : 1 ≤ number letters := by
  cases letters with
  | nil => exact absurd rfl h
  | cons c rest =>
    have hdigit : 1 ≤ digitValue c := Nat.le_add_left 1 _
    calc
      1 ≤ digitValue c * 26 ^ rest.length := Nat.mul_pos hdigit (Nat.pow_pos (by decide))
      _ ≤ number (c :: rest) := by rw [number, positional_cons]; exact Nat.le_add_right _ _

theorem isAlpha_of_mem_digits {n : Nat} {c : Char} (h : c ∈ digits n) : c.isAlpha = true := by
  have hletter : ∀ k < 26, (Char.ofNat ('A'.toNat + k)).isAlpha = true := by decide
  induction n using Nat.strongRecOn with
  | ind n ih =>
    cases n with
    | zero => rw [digits] at h; cases h
    | succ n =>
      rw [digits, List.mem_append, List.mem_singleton] at h
      rcases h with hfirst | rfl
      · exact ih (n / 26) (by omega) hfirst
      · exact hletter (n % 26) (Nat.mod_lt n (by decide))

theorem digits_ne_nil {n : Nat} (hn : 0 < n) : digits n ≠ [] := by
  cases n with
  | zero => omega
  | succ n => rw [digits]; simp

/-- The letters of a number denote that number. By induction on the number, as the letters are
made. -/
theorem number_digits (n : Nat) : number (digits n) = n := by
  have hletter : ∀ k < 26, digitValue (Char.ofNat ('A'.toNat + k)) = k + 1 := by decide
  induction n using Nat.strongRecOn with
  | ind n ih =>
    cases n with
    | zero => rw [digits]; rfl
    | succ n =>
      have hfirst : positional 26 digitValue (digits (n / 26)) = n / 26 := ih (n / 26) (by omega)
      rw [digits, number, positional_concat, hfirst, hletter _ (Nat.mod_lt n (by decide))]
      omega

/-- Capital letters denote the same number. -/
theorem number_map_toUpper (letters : List Char) :
    number (letters.map Char.toUpper) = number letters := by
  have hdigit : ∀ c : Char, digitValue c.toUpper = digitValue c := fun c => by
    rw [digitValue, Text.toUpper_toUpper, ← digitValue]
  rw [number, positional, List.map_map]
  exact congrArg (fun ds => Nat.ofDigits 26 ds.reverse)
    (List.map_congr_left fun c _ => hdigit c)

/-- Reading on from a number of the grid succeeds if and only if the whole number lies in the grid:
a number once beyond the grid stays there. -/
theorem readFrom_eq_ok_iff {first : Nat} (hfirst : first ≤ maxColumns)
    (h : ∀ c ∈ letters, c.isAlpha = true) :
    readFrom first letters = .ok col ↔
      first * 26 ^ letters.length + number letters ≤ maxColumns ∧
        col = first * 26 ^ letters.length + number letters - 1 := by
  induction letters generalizing first with
  | nil =>
    have hnone : first * 26 ^ ([] : List Char).length + number [] = first := by
      simp [number, positional]
    rw [hnone, readFrom, Except.ok.injEq]
    exact ⟨fun hcol => ⟨hfirst, hcol.symm⟩, fun hcol => hcol.2.symm⟩
  | cons c rest ih =>
    have hwhole : first * 26 ^ (c :: rest).length + number (c :: rest) =
        (26 * first + digitValue c) * 26 ^ rest.length + number rest := by
      rw [number, positional_cons, number, List.length_cons]
      ring
    rw [hwhole, readFrom, h c List.mem_cons_self]
    simp only [Bool.not_true, Bool.false_eq_true, if_false]
    by_cases hnext : maxColumns < 26 * first + digitValue c
    · have hbeyond : 26 * first + digitValue c ≤
          (26 * first + digitValue c) * 26 ^ rest.length + number rest :=
        (Nat.le_mul_of_pos_right _ (Nat.pow_pos (by decide))).trans (Nat.le_add_right _ _)
      rw [if_pos hnext]
      constructor
      · intro hread
        cases hread
      · intro hcol
        omega
    · rw [if_neg hnext]
      exact ih (by omega) fun d hd => h d (List.mem_cons_of_mem c hd)

/-- Letters name a column if and only if their number lies in the grid. -/
theorem ofLetters_eq_ok_iff (hne : letters ≠ []) (h : ∀ c ∈ letters, c.isAlpha = true) :
    ofLetters letters = .ok col ↔ number letters ≤ maxColumns ∧ col = number letters - 1 := by
  rw [ofLetters, if_neg (by simpa using hne), readFrom_eq_ok_iff (Nat.zero_le _) h, Nat.zero_mul,
    Nat.zero_add]

end Column

/-! ## Digits of a row -/

/-- The number that decimal digits denote. -/
def Number.decimal (digits : List Char) : Nat :=
  positional 10 (fun d => d.toNat - '0'.toNat) digits

/-- Leading zeros do not change what digits denote. -/
theorem Number.decimal_dropWhile_zero (ds : List Char) :
    decimal (ds.dropWhile (· == '0')) = decimal ds := by
  induction ds with
  | nil => rfl
  | cons d rest ih =>
    by_cases hd : d = '0'
    · rw [List.dropWhile_cons_of_pos (by simpa using hd), ih, hd, decimal, decimal, positional_cons]
      simp
    · rw [List.dropWhile_cons_of_neg (by simpa using hd)]

namespace Address

variable {whole : String} {cs : List Char} {row : Nat}

/-- A row is read from decimal digits whose number lies in the grid. -/
theorem readRow_eq_ok_iff : readRow whole cs = .ok row ↔
    (cs ≠ [] ∧ ∀ c ∈ cs, c.isDigit = true) ∧
      1 ≤ Number.decimal cs ∧ Number.decimal cs ≤ maxRows ∧ row = Number.decimal cs - 1 := by
  have hvalue : Number.digitsValue cs = Number.decimal cs := foldl_eq_positional cs
  rw [readRow, hvalue]
  by_cases hempty : cs = []
  · simp [hempty]
  by_cases hdigits : ∀ c ∈ cs, c.isDigit = true
  · have hall : cs.all Char.isDigit = true := List.all_eq_true.2 hdigits
    rw [if_neg (by simpa using hempty), hall]
    simp only [Bool.not_true, Bool.false_eq_true, if_false]
    by_cases hzero : Number.decimal cs = 0
    · simp [hzero]
    by_cases hbeyond : maxRows < Number.decimal cs
    · rw [if_neg hzero, if_pos hbeyond]
      constructor
      · intro h
        cases h
      · intro h
        omega
    · rw [if_neg hzero, if_neg hbeyond, Except.ok.injEq]
      exact ⟨fun h => ⟨⟨hempty, hdigits⟩, by omega, by omega, h.symm⟩, fun h => h.2.2.2.symm⟩
  · have hall : cs.all Char.isDigit = false := by
      rw [← Bool.not_eq_true, List.all_eq_true]
      exact hdigits
    rw [if_neg (by simpa using hempty), hall]
    simp [hdigits]

end Address

end Spreadsheet
