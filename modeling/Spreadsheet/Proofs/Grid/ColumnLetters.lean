import Spreadsheet.Proofs.Grid.Positional
import Spreadsheet.Proofs.Number.MachineWords
import Mathlib.Data.List.Shortlex
import Mathlib.Data.String.Basic

/-!
# The letters of columns

Numbers in base 26 without a zero digit: every number has letters, and every letters are those of
one number, so that letters and numbers are in bijection. There being no zero to put before a
number, more letters always denote a larger number, and of as many letters those that come first in
the alphabet denote the smaller one. As reading stops at the first letter that takes the number
beyond the grid, no number on the way is much larger than the grid, however many letters there are.

## Main results

* `digits_number`: letters are those of the number that they denote, but for their case.
* `lt_iff_shortlex_digits`: numbers are ordered as their letters are, by length and alphabet.
* `ofLettersChecked_eq`, `lettersChecked_eq`: no number on the way leaves its machine word.
* `letters_exact`: all of this for the columns of the grid.
-/

namespace Spreadsheet.Column

variable {letters : List Char} {col m n : Nat}

/-! ## Letters and their numbers -/

/-- A letter is, but for its case, the one with its value as a digit. -/
theorem exists_capital {c : Char} (h : c.isAlpha = true) :
    ∃ k < 26, c.toUpper = Char.ofNat ('A'.toNat + k) ∧ digitValue c = k + 1 := by
  have hletter : ∀ first ∈ [65, 97], ∀ k < 26,
      (Char.ofNat (first + k)).toUpper = Char.ofNat ('A'.toNat + k) ∧
        digitValue (Char.ofNat (first + k)) = k + 1 := by decide
  obtain ⟨first, hfirst, k, hk, hc⟩ : ∃ first ∈ [65, 97], ∃ k < 26, c.toNat = first + k := by
    rcases Text.toNat_of_isAlpha h with ⟨hfrom, hto⟩ | ⟨hfrom, hto⟩
    · exact ⟨65, by decide, c.toNat - 65, by omega, by omega⟩
    · exact ⟨97, by decide, c.toNat - 97, by omega, by omega⟩
  rw [← Char.ofNat_toNat c, hc]
  exact ⟨k, hk, hletter first hfirst k hk⟩

/-- Letters are those of the number that they denote, but for their case. By induction on the
letters from their end, where the number is divided. -/
theorem digits_number (h : ∀ c ∈ letters, c.isAlpha = true) :
    digits (number letters) = letters.map Char.toUpper := by
  induction letters using List.reverseRecOn with
  | nil =>
    have hzero : number [] = 0 := rfl
    rw [hzero, digits, List.map_nil]
  | append_singleton letters c ih =>
    obtain ⟨k, hk, hcapital, hvalue⟩ := exists_capital (h c (by simp))
    have hquotient : (26 * number letters + k) / 26 = number letters := by omega
    have hremainder : (26 * number letters + k) % 26 = k := by omega
    calc
      digits (number (letters ++ [c])) = digits (26 * number letters + k + 1) := by
        rw [number, positional_concat, hvalue]; rfl
      _ = digits (number letters) ++ [Char.ofNat ('A'.toNat + k)] := by
        rw [digits, hquotient, hremainder]
      _ = (letters ++ [c]).map Char.toUpper := by
        rw [ih fun d hd => h d (List.mem_append_left _ hd), ← hcapital, List.map_append]
        rfl

/-! ## The order of numbers and of letters -/

/-- Of as many letters before the last ones, those decide. -/
theorem lex_append {before before' : List Char} (hlength : before.length = before'.length)
    (h : List.Lex (· < ·) before before') (last last' : List Char) :
    List.Lex (· < ·) (before ++ last) (before' ++ last') := by
  induction h with
  | nil => cases hlength
  | rel hlt => exact .rel hlt
  | cons _ ih => exact .cons (ih (Nat.succ.inj hlength))

/-- A smaller number has fewer letters, or as many that come first in the alphabet. By induction on
the number, as the letters are made. -/
theorem shortlex_digits (h : m < n) : List.Shortlex (· < ·) (digits m) (digits n) := by
  have hletter : ∀ k < 26, ∀ l < 26, k < l →
      Char.ofNat ('A'.toNat + k) < Char.ofNat ('A'.toNat + l) := by decide
  induction n using Nat.strongRecOn generalizing m with
  | ind n ih =>
    obtain ⟨n, rfl⟩ : ∃ k, n = k + 1 := ⟨n - 1, by omega⟩
    cases m with
    | zero =>
      rw [digits]
      exact .of_length_lt (List.length_pos_of_ne_nil (digits_ne_nil (Nat.succ_pos n)))
    | succ m =>
      rw [digits, digits]
      by_cases hfirst : m / 26 < n / 26
      · rcases List.shortlex_def.1 (ih (n / 26) (by omega) hfirst) with hshort | ⟨hsame, hlex⟩
        · exact .of_length_lt (by simpa using hshort)
        · exact .of_lex (by simpa using hsame) (lex_append hsame hlex _ _)
      · have hsame : m / 26 = n / 26 := by omega
        have hlast : m % 26 < n % 26 := by omega
        rw [hsame]
        refine List.Shortlex.append_left ((List.shortlex_singleton_iff _ _).2 ?_) _
        exact hletter _ (Nat.mod_lt m (by decide)) _ (Nat.mod_lt n (by decide)) hlast

/-- Numbers are ordered as their letters are: by length, and then by the alphabet. -/
theorem lt_iff_shortlex_digits : m < n ↔ List.Shortlex (· < ·) (digits m) (digits n) := by
  refine ⟨shortlex_digits, fun h => Nat.lt_of_not_le fun hle => ?_⟩
  rcases Nat.lt_or_eq_of_le hle with hlt | rfl
  · exact Std.Asymm.asymm _ _ h (shortlex_digits hlt)
  · exact Std.Asymm.asymm _ _ h h

theorem length_letters (col : Nat) : (Column.letters col).length = (digits (col + 1)).length := by
  rw [Column.letters, String.length_ofList]

/-- Columns are ordered as their letters are: by length, and then by the alphabet. -/
theorem lt_iff_letters {col' : Nat} : col < col' ↔
    (Column.letters col).length < (Column.letters col').length ∨
      (Column.letters col).length = (Column.letters col').length ∧
        Column.letters col < Column.letters col' := by
  rw [← Nat.add_lt_add_iff_right (k := 1), lt_iff_shortlex_digits, List.shortlex_def,
    length_letters, length_letters, String.lt_iff_toList_lt, Column.letters, Column.letters,
    String.toList_ofList, String.toList_ofList]
  rfl

/-! ## Machine words -/

/-- The value of a letter as a digit, in 32 bits. -/
def digitValueChecked (c : Char) : Option Nat := do
  Checked.add 32 (← Checked.sub c.toUpper.toNat 'A'.toNat) 1

/-- Reads on from a number in 32 bits; the column that it comes to takes 16. -/
def readFromChecked (number : Nat) : List Char → Option (Except AddressError Nat)
  | [] => do return .ok (← Checked.fit 16 (← Checked.sub number 1))
  | c :: rest =>
    if !c.isAlpha then some (.error (.badColumnLetter c))
    else do
      let next ← Checked.add 32 (← Checked.mul 32 number 26) (← digitValueChecked c)
      if maxColumns < next then return .error .columnOutOfBounds else readFromChecked next rest

/-- The column that letters name, read in 32 bits. -/
def ofLettersChecked (letters : List Char) : Option (Except AddressError Nat) :=
  if letters.isEmpty then some (.error .emptyColumn) else readFromChecked 0 letters

/-- The letters of a number, each of them in 8 bits. -/
def digitsChecked : Nat → Option (List Char)
  | 0 => some []
  | n + 1 => do
    let last ← Checked.add 8 (n % 26) 'A'.toNat
    return (← digitsChecked (n / 26)) ++ [Char.ofNat last]
termination_by n => n
decreasing_by omega

/-- The letters of a column, whose number takes 32 bits. -/
def lettersChecked (col : Nat) : Option String := do
  return String.ofList (← digitsChecked (← Checked.add 32 col 1))

theorem digitValueChecked_eq {c : Char} (h : c.isAlpha = true) :
    digitValueChecked c = some (digitValue c) := by
  have hbounds := Text.toNat_of_isAlpha ((Text.isAlpha_toUpper c).trans h)
  have hfrom : 'A'.toNat ≤ c.toUpper.toNat := by
    change 65 ≤ c.toUpper.toNat
    omega
  have hfits : c.toUpper.toNat - 'A'.toNat + 1 < 2 ^ 32 := by
    change _ < 4294967296
    omega
  rw [digitValueChecked, Checked.sub_eq hfrom]
  exact Checked.add_eq hfits

/-- From a number of the grid, no number on the way leaves its word. By induction on the letters,
each of which is refused or leads to another number of the grid. -/
theorem readFromChecked_eq {number : Nat} (hnumber : number ≤ maxColumns)
    (h : 1 ≤ number ∨ letters ≠ []) :
    readFromChecked number letters = some (readFrom number letters) := by
  have hgrid : maxColumns = 16384 := rfl
  induction letters generalizing number with
  | nil =>
    have hpositive : 1 ≤ number := h.resolve_right (fun hne => hne rfl)
    have hfits : number - 1 < 2 ^ 16 := by
      change _ < 65536
      omega
    rw [readFromChecked, Checked.sub_eq hpositive]
    simp only [Option.bind_eq_bind, Option.bind_some, Checked.fit_eq hfits]
    rfl
  | cons c rest ih =>
    rw [readFromChecked, readFrom]
    cases hletter : c.isAlpha with
    | false => rfl
    | true =>
      obtain ⟨k, hk, _, hvalue⟩ := exists_capital hletter
      have hproduct : number * 26 < 2 ^ 32 := by
        change _ < 4294967296
        omega
      have hsum : number * 26 + digitValue c < 2 ^ 32 := by
        change _ < 4294967296
        omega
      simp only [Bool.not_true, Bool.false_eq_true, if_false, Option.bind_eq_bind,
        Option.bind_some, Checked.mul_eq hproduct, digitValueChecked_eq hletter,
        Checked.add_eq hsum]
      rw [Nat.mul_comm number 26]
      by_cases hbeyond : maxColumns < 26 * number + digitValue c
      · rw [if_pos hbeyond, if_pos hbeyond]
        rfl
      · rw [if_neg hbeyond, if_neg hbeyond]
        exact ih (Nat.le_of_not_lt hbeyond) (.inl (by omega))

/-- However many letters are read, no number on the way leaves its word. -/
theorem ofLettersChecked_eq (letters : List Char) :
    ofLettersChecked letters = some (ofLetters letters) := by
  rw [ofLettersChecked, ofLetters]
  by_cases hempty : letters = []
  · rw [hempty]
    rfl
  · rw [if_neg (by simpa using hempty), if_neg (by simpa using hempty)]
    exact readFromChecked_eq (Nat.zero_le _) (.inr hempty)

theorem digitsChecked_eq (n : Nat) : digitsChecked n = some (digits n) := by
  induction n using Nat.strongRecOn with
  | ind n ih =>
    cases n with
    | zero => rw [digitsChecked, digits]
    | succ n =>
      have hfits : n % 26 + 'A'.toNat < 2 ^ 8 := by
        change n % 26 + 65 < 256
        omega
      rw [digitsChecked, digits, Checked.add_eq hfits, ih (n / 26) (by omega),
        Nat.add_comm (n % 26)]
      rfl

/-- The letters of a column that takes 16 bits are made within their words. -/
theorem lettersChecked_eq (h : col < 2 ^ 16) : lettersChecked col = some (Column.letters col) := by
  have hfits : col + 1 < 2 ^ 32 := Nat.lt_of_le_of_lt h (by decide)
  rw [lettersChecked, Checked.add_eq hfits]
  simp only [Option.bind_eq_bind, Option.bind_some, digitsChecked_eq]
  rfl

/-! ## The columns of the grid -/

theorem isAlpha_of_mem_letters {c : Char} (h : c ∈ (Column.letters col).toList) :
    c.isAlpha = true := by
  rw [Column.letters, String.toList_ofList] at h
  exact isAlpha_of_mem_digits h

/-- The letters of a column of the grid name it. -/
theorem ofLetters_letters (h : col < maxColumns) :
    ofLetters (Column.letters col).toList = .ok col := by
  have hletters : (Column.letters col).toList = digits (col + 1) := by
    rw [Column.letters, String.toList_ofList]
  have hne : (Column.letters col).toList ≠ [] := hletters ▸ digits_ne_nil (Nat.succ_pos col)
  rw [ofLetters_eq_ok_iff hne fun c => isAlpha_of_mem_letters, hletters, number_digits]
  exact ⟨h, rfl⟩

/-- Letters that name a column are its letters, but for their case. -/
theorem letters_of_ofLetters (hne : letters ≠ []) (h : ∀ c ∈ letters, c.isAlpha = true)
    (hcol : ofLetters letters = .ok col) :
    Column.letters col = String.ofList (letters.map Char.toUpper) := by
  obtain ⟨_, rfl⟩ := (ofLetters_eq_ok_iff hne h).1 hcol
  rw [Column.letters, Nat.sub_add_cancel (number_pos hne), digits_number h]

/-- Letters name a column if and only if the number that they denote lies in the grid, and then they
are the letters of that column; each column of the grid is named by its letters, and columns are
ordered as their letters are. In reading letters, however many, and in writing those of a column of
16 bits, no number leaves its machine word. -/
theorem letters_exact :
    (∀ s : String, s ≠ "" → (∀ c ∈ s.toList, c.isAlpha = true) → ∀ col,
      (ofLetters s.toList = .ok col ↔
        number s.toList ≤ maxColumns ∧ col = number s.toList - 1) ∧
      (ofLetters s.toList = .ok col → Column.letters col = Text.upperAscii s)) ∧
    (∀ col < maxColumns, ofLetters (Column.letters col).toList = .ok col) ∧
    (∀ col col', col < col' ↔ (Column.letters col).length < (Column.letters col').length ∨
      (Column.letters col).length = (Column.letters col').length ∧
        Column.letters col < Column.letters col') ∧
    (∀ letters, ofLettersChecked letters = some (ofLetters letters)) ∧
    ∀ col < 2 ^ 16, lettersChecked col = some (Column.letters col) := by
  refine ⟨fun s hs h col => ?_, fun col => ofLetters_letters, fun col col' => lt_iff_letters,
    ofLettersChecked_eq, fun col => lettersChecked_eq⟩
  have hne : s.toList ≠ [] := fun hnil => hs (String.toList_eq_nil_iff.1 hnil)
  exact ⟨ofLetters_eq_ok_iff hne h, letters_of_ofLetters hne h⟩

/-- The last column of the grid, its letters in mixed case. -/
theorem letters_exact_lastColumn :
    "xFd" ≠ "" ∧ (∀ c ∈ "xFd".toList, c.isAlpha = true) ∧
      ofLetters "xFd".toList = .ok 16383 ∧ Column.letters 16383 = Text.upperAscii "xFd" ∧
      16383 < maxColumns ∧ ofLetters (Column.letters 16383).toList = .ok 16383 := by
  obtain ⟨hnames, hnamed, _⟩ := letters_exact
  have hletters : ∀ c ∈ "xFd".toList, c.isAlpha = true := List.all_eq_true.1 rfl
  have hcol : ofLetters "xFd".toList = .ok 16383 :=
    (hnames "xFd" (by decide) hletters 16383).1.2 ⟨by decide, by decide⟩
  exact ⟨by decide, hletters, hcol, (hnames "xFd" (by decide) hletters 16383).2 hcol, by decide,
    hnamed 16383 (by decide)⟩

end Spreadsheet.Column
