import Spreadsheet.Text.Blank
import Mathlib.Data.List.DropRight

/-!
# Blanks on both sides of a text

Blanks are dropped before a text and behind it, in either order, and what is left begins and ends
with characters that are not blank. A character that is not blank stays, and so does everything
between two such characters.

## Main results

* `skipBlanks_dropEnd`: it does not matter on which side blanks are dropped first.
* `trimChars_blanks_around`: blanks around a text without any are dropped.
* `trimChars_append_cons`: blanks are dropped on the two sides of a character separately.
-/

namespace Spreadsheet.Text

variable {c : Char} {cs before after : List Char}

/-- No character is anything but a blank. -/
def AllBlank (cs : List Char) : Prop :=
  ∀ c ∈ cs, isBlank c = true

/-! ## Blanks before a text -/

theorem skipBlanks_cons_of_blank (h : isBlank c = true) : skipBlanks (c :: cs) = skipBlanks cs :=
  List.dropWhile_cons_of_pos h

theorem skipBlanks_cons_of_not_blank (h : isBlank c = false) : skipBlanks (c :: cs) = c :: cs :=
  List.dropWhile_cons_of_neg (by simp [h])

theorem skipBlanks_skipBlanks (cs : List Char) : skipBlanks (skipBlanks cs) = skipBlanks cs :=
  List.dropWhile_idempotent _ _

theorem skipBlanks_append (h : AllBlank before) (cs : List Char) :
    skipBlanks (before ++ cs) = skipBlanks cs :=
  List.dropWhile_append_of_pos h

theorem skipBlanks_of_head (h : ∀ c ∈ cs.head?, isBlank c = false) : skipBlanks cs = cs := by
  cases cs with
  | nil => rfl
  | cons c others => exact skipBlanks_cons_of_not_blank (h c rfl)

/-- Nothing behind a character that is not blank is dropped. -/
theorem skipBlanks_append_cons (h : isBlank c = false) (before after : List Char) :
    skipBlanks (before ++ c :: after) = skipBlanks before ++ c :: after := by
  induction before with
  | nil => exact skipBlanks_cons_of_not_blank h
  | cons d before ih =>
    cases hd : isBlank d with
    | true => rw [List.cons_append, skipBlanks_cons_of_blank hd, ih, skipBlanks_cons_of_blank hd]
    | false => rw [List.cons_append, skipBlanks_cons_of_not_blank hd,
        skipBlanks_cons_of_not_blank hd, List.cons_append]

/-! ## Blanks behind a text -/

/-- Everything up to the last character that is not blank. -/
def dropEnd (cs : List Char) : List Char :=
  cs.rdropWhile isBlank

theorem dropEnd_dropEnd (cs : List Char) : dropEnd (dropEnd cs) = dropEnd cs :=
  List.rdropWhile_idempotent ..

theorem dropEnd_append (h : AllBlank after) (cs : List Char) :
    dropEnd (cs ++ after) = dropEnd cs := by
  have hreverse : ∀ c ∈ after.reverse, isBlank c = true :=
    fun c hc => h c (List.mem_reverse.1 hc)
  rw [dropEnd, dropEnd, List.rdropWhile, List.rdropWhile, List.reverse_append,
    List.dropWhile_append_of_pos hreverse]

theorem dropEnd_of_last (h : ∀ c ∈ cs.getLast?, isBlank c = false) : dropEnd cs = cs := by
  rw [dropEnd, List.rdropWhile_eq_self_iff]
  intro hne
  simp [h _ (List.getLast_mem_getLast? hne)]

theorem dropEnd_eq_reverse (cs : List Char) : dropEnd cs = (skipBlanks cs.reverse).reverse := rfl

/-- Nothing before a character that is not blank is dropped. -/
theorem dropEnd_append_cons (h : isBlank c = false) (before after : List Char) :
    dropEnd (before ++ c :: after) = before ++ c :: dropEnd after := by
  rw [dropEnd_eq_reverse, dropEnd_eq_reverse, List.reverse_append, List.reverse_cons,
    List.append_assoc, List.singleton_append, skipBlanks_append_cons h]
  simp

theorem dropEnd_cons_of_not_blank (h : isBlank c = false) :
    dropEnd (c :: cs) = c :: dropEnd cs :=
  dropEnd_append_cons h [] cs

theorem skipBlanks_dropEnd_cons (h : isBlank c = true) :
    skipBlanks (dropEnd (c :: cs)) = skipBlanks (dropEnd cs) := by
  rw [dropEnd, dropEnd, List.rdropWhile, List.rdropWhile, List.reverse_cons, List.dropWhile_append]
  split
  · next hall => simp [List.isEmpty_iff.1 hall, h]
  · rw [List.reverse_append]
    exact skipBlanks_cons_of_blank h

/-! ## Blanks on both sides -/

theorem trimChars_eq_dropEnd (cs : List Char) : trimChars cs = dropEnd (skipBlanks cs) := rfl

/-- It does not matter on which side blanks are dropped first. -/
theorem skipBlanks_dropEnd (cs : List Char) :
    skipBlanks (dropEnd cs) = dropEnd (skipBlanks cs) := by
  induction cs with
  | nil => rfl
  | cons c cs ih =>
    cases h : isBlank c with
    | true => rw [skipBlanks_dropEnd_cons h, ih, skipBlanks_cons_of_blank h]
    | false =>
      rw [dropEnd_cons_of_not_blank h, skipBlanks_cons_of_not_blank h,
        skipBlanks_cons_of_not_blank h, dropEnd_cons_of_not_blank h]

theorem skipBlanks_trimChars (cs : List Char) : skipBlanks (trimChars cs) = trimChars cs := by
  rw [trimChars_eq_dropEnd, skipBlanks_dropEnd, skipBlanks_skipBlanks]

theorem trimChars_trimChars (cs : List Char) : trimChars (trimChars cs) = trimChars cs := by
  rw [trimChars_eq_dropEnd (trimChars cs), skipBlanks_trimChars, trimChars_eq_dropEnd,
    dropEnd_dropEnd]

/-- What is dropped on one side is not missed when both sides are looked at. -/
theorem trimChars_skipBlanks (cs : List Char) : trimChars (skipBlanks cs) = trimChars cs := by
  rw [trimChars_eq_dropEnd, skipBlanks_skipBlanks, trimChars_eq_dropEnd]

theorem trimChars_dropEnd (cs : List Char) : trimChars (dropEnd cs) = trimChars cs := by
  rw [trimChars_eq_dropEnd, skipBlanks_dropEnd, dropEnd_dropEnd, trimChars_eq_dropEnd]

/-- Blanks on both sides of a text without any are dropped. -/
theorem trimChars_blanks_around (hbefore : AllBlank before)
    (hcs : ∀ c ∈ cs, isBlank c = false) (hafter : AllBlank after) :
    trimChars (before ++ (cs ++ after)) = cs := by
  rw [trimChars_eq_dropEnd, skipBlanks_append hbefore, ← skipBlanks_dropEnd, dropEnd_append hafter,
    dropEnd_of_last fun c hc => hcs c (List.mem_of_getLast? hc),
    skipBlanks_of_head fun c hc => hcs c (List.mem_of_head? hc)]

/-- Characters that are not blank stay when blanks are dropped. -/
theorem trimChars_of_not_blank (h : ∀ c ∈ cs, isBlank c = false) : trimChars cs = cs := by
  have hnone : AllBlank [] := fun c hc => by cases hc
  have htrim : trimChars ([] ++ (cs ++ [])) = cs := trimChars_blanks_around hnone h hnone
  rwa [List.nil_append, List.append_nil] at htrim

/-- On the two sides of a character that is not blank, blanks are dropped separately. -/
theorem trimChars_append_cons (h : isBlank c = false) (before after : List Char) :
    trimChars (before ++ c :: after) = skipBlanks before ++ c :: dropEnd after := by
  rw [trimChars_eq_dropEnd, skipBlanks_append_cons h, dropEnd_append_cons h]

/-- A character that is not blank stays. -/
theorem mem_trimChars (hc : c ∈ cs) (h : isBlank c = false) : c ∈ trimChars cs := by
  obtain ⟨before, after, rfl⟩ := List.append_of_mem hc
  rw [trimChars_append_cons h]
  exact List.mem_append_right _ List.mem_cons_self

theorem mem_of_mem_skipBlanks (h : c ∈ skipBlanks cs) : c ∈ cs :=
  (List.dropWhile_sublist _).subset h

end Spreadsheet.Text
