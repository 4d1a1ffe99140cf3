import Mathlib.Data.List.DropRight
import StyleGraph.Text.Blank

/-!
# Trimmed texts

A text that was trimmed has no blank at an end, so trimming it again changes nothing. The same holds
of any other kind of characters that is dropped at both ends.
-/

set_option autoImplicit false

namespace StyleGraph.Text

variable (p : Char → Bool)

/-- Dropping at the end leaves a beginning. -/
theorem isPrefix_dropEndWhile (cs : List Char) : dropEndWhile p cs <+: cs :=
  List.rdropWhile_prefix p cs

/-- What is left when both ends go was a part of the text. -/
theorem isInfix_dropEnds (cs : List Char) :
    dropEndWhile p (cs.dropWhile p) <:+: cs :=
  (isPrefix_dropEndWhile p _).isInfix.trans (List.dropWhile_suffix p).isInfix

/-- What begins with no such character begins with none when those at its end go. -/
theorem dropWhile_dropEndWhile_dropWhile (cs : List Char) :
    (dropEndWhile p (cs.dropWhile p)).dropWhile p = dropEndWhile p (cs.dropWhile p) := by
  have begun : dropEndWhile p (cs.dropWhile p) <+: cs.dropWhile p := isPrefix_dropEndWhile p _
  generalize dropEndWhile p (cs.dropWhile p) = kept at begun
  cases kept with
  | nil => rfl
  | cons c kept =>
    obtain ⟨more, rest⟩ := begun
    have head := List.head?_dropWhile_not p cs
    rw [← rest, List.cons_append, List.head?_cons] at head
    rw [List.dropWhile_cons_of_neg (by simpa using head)]

/-- **Dropping at both ends twice is dropping once.** -/
theorem dropEnds_dropEnds (cs : List Char) :
    dropEndWhile p ((dropEndWhile p (cs.dropWhile p)).dropWhile p) =
      dropEndWhile p (cs.dropWhile p) := by
  rw [dropWhile_dropEndWhile_dropWhile]
  exact List.rdropWhile_idempotent p _

variable {p}

/-- Nothing is dropped from a text without such characters. -/
theorem dropEnds_of_forall {cs : List Char} (none : ∀ c ∈ cs, p c = false) :
    dropEndWhile p (cs.dropWhile p) = cs := by
  have start : cs.dropWhile p = cs :=
    List.dropWhile_eq_self_iff.mpr fun _ => by simp [none]
  rw [start]
  exact List.rdropWhile_eq_self_iff.mpr fun _ => by simp [none]

/-- The code points of ASCII letters and digits. -/
theorem toNat_of_isAlphanum {c : Char} (alphanumeric : c.isAlphanum = true) :
    (48 ≤ c.toNat ∧ c.toNat ≤ 57) ∨ (65 ≤ c.toNat ∧ c.toNat ≤ 90) ∨
      (97 ≤ c.toNat ∧ c.toNat ≤ 122) := by
  unfold Char.isAlphanum Char.isAlpha Char.isUpper Char.isLower Char.isDigit at alphanumeric
  simp only [Bool.or_eq_true, Bool.and_eq_true, decide_eq_true_eq, ge_iff_le,
    UInt32.le_iff_toNat_le] at alphanumeric
  rcases alphanumeric with (upper | lower) | digit
  · exact .inr (.inl upper)
  · exact .inr (.inr lower)
  · exact .inl digit

/-- Letters and digits are not blank. -/
theorem not_isBlank_of_isAlphanum {c : Char} (alphanumeric : c.isAlphanum = true) :
    isBlank c = false := by
  have range := toNat_of_isAlphanum alphanumeric
  simp only [isBlank, Bool.or_eq_false_iff, Bool.and_eq_false_iff, decide_eq_false_iff_not,
    beq_eq_false_iff_ne]
  omega

/-- Trimming twice is trimming once. -/
theorem trim_trim (cs : List Char) : trim (trim cs) = trim cs := dropEnds_dropEnds isBlank cs

/-- The same for strings. -/
theorem trimmed_trimmed (s : String) : trimmed (trimmed s) = trimmed s := by
  rw [trimmed, trimmed, String.toList_ofList, trim_trim]

/-- Nothing is left of a text exactly if all its characters are blank. Otherwise what is left would
begin with a character that is not blank. -/
theorem trimmed_eq_empty_iff (s : String) : trimmed s = "" ↔ isBlankString s = true := by
  rw [trimmed, String.ofList_eq_empty_iff, trim, trimEnd, trimStart, dropEndWhile,
    List.reverse_eq_nil_iff, List.dropWhile_eq_nil_iff, isBlankString, List.all_eq_true]
  constructor
  · intro dropped
    by_cases left : s.toList.dropWhile isBlank = []
    · exact List.dropWhile_eq_nil_iff.mp left
    · -- What the rest begins with is not blank.
      have first := List.head_dropWhile_not isBlank left
      have blank := dropped _ (List.mem_reverse.mpr (List.head_mem left))
      exact absurd (blank.symm.trans first) (by simp)
  · intro blank c mem
    exact blank c (List.dropWhile_suffix isBlank |>.subset (List.mem_reverse.mp mem))

end StyleGraph.Text
