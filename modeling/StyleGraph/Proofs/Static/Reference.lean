import Mathlib.Data.List.Induction
import StyleGraph.Proofs.Css.Selector.Written
import StyleGraph.Proofs.Text.Cut
import StyleGraph.Static.Reference

/-!
# Class names in selectors as words

A selector is read as words of name characters with other characters between them. The dot of a
class is asked for where a word is one of the names and no dot stands before it (`dotted`): each
place is judged by the given selector, for all names at once.

The names are put in one after the other, into a text that was changed before, and the search for a
name goes on behind each occurrence without a look back. The first makes no difference, since a dot
before a word leaves the words of a text as they are (`words_dotted`). The second does: where a word
ends in two neighbouring occurrences, the last one is taken for a word of its own (`EndsTwice`).
`dotNames_eq_dotted_iff` says that this is the only way to go wrong, and `dotNames_twice` is a
selector with such a word.
-/

set_option autoImplicit false

namespace StyleGraph.Static

open Css.Selector (runs runs_induction runs_of_unbroken runs_append_break)

/-! ## Where dots are asked for -/

/-- Class names are not empty and consist of name characters. -/
def IsClassName (name : String) : Prop := name ≠ "" ∧ ∀ c ∈ name.toList, isNameChar c = true

instance (name : String) : Decidable (IsClassName name) :=
  decidable_of_iff (name ≠ "" ∧ name.toList.all isNameChar = true)
    (and_congr_right fun _ => List.all_eq_true)

/-- Whether one of the names begins a text after the given character, and is not part of a longer
name there. -/
def isWhole (names : List String) (before : Option Char) (text : List Char) : Bool :=
  beginsAfter before && names.any fun name =>
    (Text.stripStart? name.toList text).any fun after => endsBefore after.head?

/-- A text with a dot before every place where one of the names stands as a whole. -/
def dotted (names : List String) : Option Char → List Char → List Char
  | _, [] => []
  | before, c :: rest =>
    (if isWhole names before (c :: rest) then ['.'] else []) ++ c :: dotted names (some c) rest

/-- The characters between words. -/
def endsName (c : Char) : Bool := !isNameChar c

/-- The words of a text. -/
def words (text : List Char) : List (List Char) :=
  (runs endsName text).filter fun run => !run.isEmpty

variable {name text run gap : List Char} {names : List String} {c : Char}

/-- A character that ends names also ends words, so the words before it and behind it are known
apart. -/
theorem words_append_cons (ends : endsName c = true) (before after : List Char) :
    words (before ++ c :: after) = words before ++ words after := by
  rw [words, runs_append_break before ends, List.filter_append]
  rfl

/-- A text of name characters is one word, if it is not empty. -/
theorem words_of_unbroken (unbroken : ∀ c ∈ run, endsName c = false) :
    words run = if run = [] then [] else [run] := by
  rw [words, runs_of_unbroken unbroken]
  cases run <;> rfl

/-- Every text is a word or nothing, or consists of two texts and a character between words. -/
theorem words_induction {motive : List Char → Prop}
    (word : ∀ run, (∀ c ∈ run, endsName c = false) → motive run)
    (more : ∀ before c after, endsName c = true → motive before → motive after →
      motive (before ++ c :: after)) (text : List Char) : motive text :=
  runs_induction endsName word
    (fun run c rest unbroken ends ih => more run c rest ends (word run unbroken) ih) text

/-! ## Searching a text part by part -/

/-- Whether a name stands at the beginning is not changed by text behind a character that the name
does not have. -/
theorem stripStart?_append_cons (absent : c ∉ name) (text rest : List Char) :
    Text.stripStart? name (text ++ c :: rest) =
      (Text.stripStart? name text).map (· ++ c :: rest) := by
  induction name generalizing text with
  | nil => rfl
  | cons first name ih =>
    obtain ⟨differs, absent⟩ := List.ne_and_not_mem_of_not_mem_cons absent
    cases text with
    | nil => simp [Text.stripStart?, Ne.symm differs]
    | cons d text =>
      simp only [List.cons_append, Text.stripStart?]
      split
      · exact ih absent text
      · rfl

/-- What follows a name is seen from the next character alone. -/
theorem endsBefore_append_cons (ends : endsName c = true) (after rest : List Char) :
    endsBefore (after ++ c :: rest).head? = endsBefore after.head? := by
  cases after with
  | nil => exact ends
  | cons d after => rfl

/-- A name that is not empty does not stand in the empty text. -/
theorem stripStart?_nil (filled : name ≠ []) : Text.stripStart? name [] = none := by
  cases name with
  | nil => exact absurd rfl filled
  | cons first name => rfl

/-- A character between words stops the search, which begins again behind it. Hence a text can be
searched word by word. What was copied of a name counts only as far as the word goes. -/
theorem dotName_append_cons (filled : name ≠ []) (valid : ∀ c ∈ name, isNameChar c = true)
    (ends : endsName c = true) (text rest : List Char) (before : Option Char) {copied : Nat}
    (within : copied ≤ text.length) :
    dotName name copied before (text ++ c :: rest) =
      dotName name copied before text ++ c :: dotName name 0 (some c) rest := by
  have absent : c ∉ name := fun mem => by simp [endsName, valid c mem] at ends
  induction text generalizing before copied with
  | nil =>
    have stripped := stripStart?_append_cons absent [] rest
    rw [stripStart?_nil filled, List.nil_append, Option.map_none] at stripped
    cases Nat.le_zero.mp within
    simp only [List.nil_append, dotName, stripped]
  | cons d text ih =>
    cases copied with
    | succ copied =>
      simp only [List.cons_append, dotName, ih none (Nat.le_of_succ_le_succ within)]
    | zero =>
      have stripped := stripStart?_append_cons absent (d :: text) rest
      rw [List.cons_append] at stripped
      simp only [List.cons_append, dotName, stripped]
      cases found : Text.stripStart? name (d :: text) with
      | none => simp only [Option.map_none, ih (some d) (Nat.zero_le _), List.cons_append]
      | some after =>
        have fits : name.length - 1 ≤ text.length := by
          have whole := congrArg List.length (Text.eq_append_of_stripStart? found)
          simp only [List.length_cons, List.length_append] at whole
          omega
        simp only [Option.map_some, endsBefore_append_cons ends, ih none fits, List.append_assoc,
          List.cons_append]

/-- A name stands as a whole where one may begin, when a name that is listed is followed by nothing
that continues it. -/
theorem isWhole_iff {before : Option Char} :
    isWhole names before text = true ↔ beginsAfter before = true ∧
      ∃ name ∈ names, ∃ after, text = name.toList ++ after ∧ endsBefore after.head? = true := by
  simp only [isWhole, Bool.and_eq_true, List.any_eq_true, Option.any_eq_true]
  refine and_congr_right fun _ => exists_congr fun name => and_congr_right fun _ => ?_
  refine exists_congr fun after => and_congr_left fun _ => ⟨Text.eq_append_of_stripStart?, ?_⟩
  rintro rfl
  exact Text.stripStart?_append _ after

/-- Where a name stands as a whole does not depend on what comes behind the next character between
words. -/
theorem isWhole_append_cons (valid : ∀ name ∈ names, IsClassName name) (ends : endsName c = true)
    (text rest : List Char) (before : Option Char) :
    isWhole names before (text ++ c :: rest) = isWhole names before text := by
  rw [Bool.eq_iff_iff]
  simp only [isWhole, Bool.and_eq_true, List.any_eq_true]
  refine and_congr_right fun _ => exists_congr fun name => and_congr_right fun mem => ?_
  have absent : c ∉ name.toList := fun listed => by
    simp [endsName, (valid name mem).2 c listed] at ends
  rw [stripStart?_append_cons absent]
  cases Text.stripStart? name.toList text with
  | none => rfl
  | some after => simp only [Option.map_some, Option.any_some, endsBefore_append_cons ends]

/-- No name stands in the empty text. -/
theorem isWhole_nil (valid : ∀ name ∈ names, IsClassName name) (before : Option Char) :
    isWhole names before [] = false := by
  rw [Bool.eq_false_iff, ne_eq, isWhole_iff]
  rintro ⟨-, name, mem, after, same, -⟩
  have empty := (List.append_eq_nil_iff.mp same.symm).1
  exact (valid name mem).1 (String.toList_inj.mp empty)

/-- A character between words separates the places where dots are asked for. No name holds such a
character, so none is whole across it. -/
theorem dotted_append_cons (valid : ∀ name ∈ names, IsClassName name) (ends : endsName c = true)
    (text rest : List Char) (before : Option Char) :
    dotted names before (text ++ c :: rest) =
      dotted names before text ++ c :: dotted names (some c) rest := by
  induction text generalizing before with
  | nil =>
    have here := isWhole_append_cons valid ends [] rest before
    rw [isWhole_nil valid, List.nil_append] at here
    simp only [List.nil_append, dotted, here, Bool.false_eq_true, if_false]
  | cons d text ih =>
    have here := isWhole_append_cons valid ends (d :: text) rest before
    rw [List.cons_append] at here
    simp only [List.cons_append, dotted, here, ih, List.append_assoc]

/-! ## Dots before words -/

/-- Behind a character of a name no name begins. -/
theorem beginsAfter_of_unbroken (unbroken : endsName c = false) : beginsAfter (some c) = false := by
  simp only [endsName, Bool.not_eq_false'] at unbroken
  simp [beginsAfter, unbroken]

/-- No dot is asked for inside a word. -/
theorem dotted_of_unbroken (ends : endsName c = false) (unbroken : ∀ c ∈ run, endsName c = false) :
    dotted names (some c) run = run := by
  induction run generalizing c with
  | nil => rfl
  | cons d run ih =>
    have inside : isWhole names (some c) (d :: run) = false := by
      rw [isWhole, beginsAfter_of_unbroken ends, Bool.false_and]
    rw [dotted, inside, ih (unbroken d List.mem_cons_self) fun other mem =>
      unbroken other (List.mem_cons_of_mem _ mem)]
    rfl

/-- A word ends where its text does. -/
theorem endsBefore_head?_iff (unbroken : ∀ c ∈ run, endsName c = false) :
    endsBefore run.head? = true ↔ run = [] := by
  cases run with
  | nil => simp [endsBefore]
  | cons d run =>
    have inside := unbroken d List.mem_cons_self
    simp only [endsName] at inside
    simp [endsBefore, inside]

/-- **A word gets a dot if it is one of the names**, where a name may begin. A word is all that
stands between two characters that end names, so it is a name or has none. -/
theorem dotted_word (valid : ∀ name ∈ names, IsClassName name)
    (unbroken : ∀ c ∈ run, endsName c = false) (before : Option Char) :
    dotted names before run =
      if String.ofList run ∈ names ∧ beginsAfter before = true then '.' :: run else run := by
  cases run with
  | nil =>
    have unlisted : "" ∉ names := fun mem => (valid "" mem).1 rfl
    simp [dotted, unlisted]
  | cons c run =>
    have tailUnbroken := fun other mem => unbroken other (List.mem_cons_of_mem c mem)
    have whole : isWhole names before (c :: run) = true ↔
        String.ofList (c :: run) ∈ names ∧ beginsAfter before = true := by
      rw [isWhole_iff, and_comm, and_congr_left_iff]
      intro _
      constructor
      · rintro ⟨name, mem, after, same, ends⟩
        have done : after = [] := by
          refine (endsBefore_head?_iff fun d listed => unbroken d ?_).mp ends
          simp [same, listed]
        rw [same, done, List.append_nil, String.ofList_toList]
        exact mem
      · intro mem
        exact ⟨_, mem, [], by simp, rfl⟩
    rw [dotted, dotted_of_unbroken (unbroken c List.mem_cons_self) tailUnbroken]
    simp only [whole]
    split <;> rfl

/-! ## Searching for a name -/

/-- A name behind a gap does not occur before. -/
def IsFirst (name gap : List Char) : Prop := ¬ name <:+: (gap ++ name).dropLast

/-- In an empty gap there is no earlier place. -/
theorem isFirst_nil (filled : name ≠ []) : IsFirst name [] := by
  intro occurs
  have shorter := occurs.length_le
  rw [List.nil_append, List.length_dropLast] at shorter
  have := List.length_pos_iff.mpr filled
  omega

/-- A place is the first one if the name does not stand at the beginning, and the place is the first
one in the rest. -/
theorem isFirst_cons_iff (filled : name ≠ []) (after : List Char) :
    IsFirst name (c :: gap) ↔ ¬ name <+: c :: (gap ++ (name ++ after)) ∧ IsFirst name gap := by
  have nonempty : gap ++ name ≠ [] := by simp [filled]
  have leads : name <+: c :: (gap ++ name).dropLast ↔ name <+: c :: (gap ++ (name ++ after)) := by
    have shortened : c :: (gap ++ name).dropLast <+: c :: (gap ++ (name ++ after)) := by
      rw [List.prefix_cons_inj, ← List.append_assoc]
      exact (List.dropLast_prefix _).trans (List.prefix_append _ _)
    refine ⟨fun begun => begun.trans shortened, fun begun => ?_⟩
    refine List.prefix_of_prefix_length_le begun shortened ?_
    simp only [List.length_cons, List.length_dropLast, List.length_append]
    omega
  rw [IsFirst, IsFirst, List.cons_append, List.dropLast_cons_of_ne_nil nonempty,
    List.infix_cons_iff, leads, not_or]

/-- A name that occurs in a text has a first occurrence. -/
theorem exists_isFirst (filled : name ≠ []) (occurs : name <:+: text) :
    ∃ gap after, text = gap ++ (name ++ after) ∧ IsFirst name gap := by
  induction text with
  | nil => exact absurd (List.infix_nil.mp occurs) filled
  | cons c text ih =>
    by_cases leads : name <+: c :: text
    · obtain ⟨after, same⟩ := leads
      exact ⟨[], after, same.symm, isFirst_nil filled⟩
    · obtain ⟨gap, after, rfl, first⟩ := ih ((List.infix_cons_iff.mp occurs).resolve_left leads)
      exact ⟨c :: gap, after, rfl, (isFirst_cons_iff filled after).mpr ⟨leads, first⟩⟩

/-- A text in which a name does not stand anywhere stays as it is. -/
theorem dotName_of_not_isInfix (absent : ¬ name <:+: text) (before : Option Char) :
    dotName name 0 before text = text := by
  induction text generalizing before with
  | nil => rfl
  | cons c text ih =>
    rw [List.infix_cons_iff, not_or] at absent
    cases found : Text.stripStart? name (c :: text) with
    | none => simp only [dotName, found, ih absent.2]
    | some after =>
      exact absurd ⟨after, (Text.eq_append_of_stripStart? found).symm⟩ absent.1

/-- What is copied is not looked at. -/
theorem dotName_copied (part after : List Char) :
    dotName name part.length none (part ++ after) = part ++ dotName name 0 none after := by
  induction part with
  | nil => rfl
  | cons c part ih => simp only [List.length_cons, List.cons_append, dotName, ih]

/-- **The search finds the first occurrence of a name**, and goes on behind it as if nothing stood
before. -/
theorem dotName_of_isFirst (filled : name ≠ []) (first : IsFirst name gap) (before : Option Char)
    (after : List Char) :
    dotName name 0 before (gap ++ (name ++ after)) =
      gap ++ ((if beginsAfter (gap.getLast?.or before) && endsBefore after.head? then ['.']
        else []) ++ (name ++ dotName name 0 none after)) := by
  induction gap generalizing before with
  | nil =>
    obtain ⟨c, rest, rfl⟩ := List.exists_cons_of_ne_nil filled
    have found := Text.stripStart?_append (c :: rest) after
    rw [List.cons_append] at found
    simp only [List.nil_append, List.cons_append, dotName, found, List.length_cons,
      Nat.add_sub_cancel, dotName_copied, List.getLast?_nil, Option.none_or]
    rfl
  | cons c gap ih =>
    obtain ⟨later, first⟩ := (isFirst_cons_iff filled after).mp first
    have missed : Text.stripStart? name (c :: (gap ++ (name ++ after))) = none := by
      refine Option.eq_none_iff_forall_ne_some.mpr fun rest found => later ⟨rest, ?_⟩
      exact (Text.eq_append_of_stripStart? found).symm
    have last : (c :: gap).getLast?.or before = gap.getLast?.or (some c) := by
      rw [List.getLast?_cons]
      cases gap.getLast? <;> rfl
    rw [last, List.cons_append, List.cons_append, ← ih first (some c)]
    simp only [dotName, missed]

/-! ## One word -/

/-- The search for a name from left to right ends a word with two neighbouring occurrences. -/
inductive EndsTwice (name : List Char) : List Char → Prop
  | here {gap : List Char} (first : IsFirst name gap) : EndsTwice name (gap ++ (name ++ name))
  | later {gap rest : List Char} (first : IsFirst name gap) (behind : EndsTwice name rest) :
      EndsTwice name (gap ++ (name ++ rest))

/-- A run that ends in a name twice is not empty. -/
theorem EndsTwice.ne_nil (filled : name ≠ []) (twice : EndsTwice name run) : run ≠ [] := by
  cases twice <;> simp [filled]

/-- An occurrence in a word gets no dot when something follows. -/
theorem dotName_of_isFirst_word (filled : name ≠ []) (first : IsFirst name gap)
    (before : Option Char) {rest : List Char} (more : rest ≠ [])
    (unbroken : ∀ c ∈ rest, endsName c = false) :
    dotName name 0 before (gap ++ (name ++ rest)) = gap ++ (name ++ dotName name 0 none rest) := by
  have goesOn : endsBefore rest.head? = false := by
    rw [Bool.eq_false_iff, ne_eq, endsBefore_head?_iff unbroken]
    exact more
  rw [dotName_of_isFirst filled first, goesOn, Bool.and_false]
  rfl

/-- **A word is only looked at as a whole**, unless it ends in the name twice. By induction on the
length, as the search goes on behind a first occurrence that was no name of its own. -/
theorem dotName_word (filled : name ≠ []) (unbroken : ∀ c ∈ run, endsName c = false)
    (once : ¬ EndsTwice name run) (before : Option Char) :
    dotName name 0 before run =
      if run = name ∧ beginsAfter before = true then '.' :: run else run := by
  induction length : run.length using Nat.strongRecOn generalizing run before with
  | ind size ih =>
    by_cases occurs : name <:+: run
    · obtain ⟨gap, rest, rfl, first⟩ := exists_isFirst filled occurs
      have alone : gap ++ (name ++ rest) = name ↔ gap = [] ∧ rest = [] := by
        refine ⟨fun same => ?_, by rintro ⟨rfl, rfl⟩; simp⟩
        have lengths := congrArg List.length same
        simp only [List.length_append] at lengths
        exact ⟨List.length_eq_zero_iff.mp (by omega), List.length_eq_zero_iff.mp (by omega)⟩
      simp only [alone]
      by_cases more : rest = []
      · -- The name ends the word, and it is the word if nothing stands before it.
        subst more
        rw [dotName_of_isFirst filled first]
        cases gap using List.reverseRecOn with
        | nil => cases begins : beginsAfter before <;> simp [begins, dotName, endsBefore]
        | append_singleton gap c =>
          have inside := beginsAfter_of_unbroken (unbroken c (by simp))
          simp [inside, dotName]
      · have restUnbroken : ∀ c ∈ rest, endsName c = false := fun c mem =>
          unbroken c (by simp [mem])
        have restOnce : ¬ EndsTwice name rest := fun twice => once (.later first twice)
        have shorter : rest.length < size := by
          have := List.length_pos_iff.mpr filled
          simp only [List.length_append] at length
          omega
        have differs : rest ≠ name := by
          rintro rfl
          exact once (.here first)
        rw [dotName_of_isFirst_word filled first before more restUnbroken,
          ih rest.length shorter restUnbroken restOnce none rfl, if_neg fun both => differs both.1,
          if_neg fun both => more both.1.2]
    · have differs : run ≠ name := by
        rintro rfl
        exact occurs List.infix_rfl
      rw [dotName_of_not_isInfix occurs, if_neg fun both => differs both.1]

/-- **A word that ends in the name twice is cut in two.** The first occurrence is passed over, since
the word goes on behind it, and the second one gets its dot inside the word. -/
theorem exists_dotName_of_endsTwice (filled : name ≠ []) (unbroken : ∀ c ∈ run, endsName c = false)
    (twice : EndsTwice name run) (before : Option Char) :
    ∃ lead tail, lead ≠ [] ∧ tail ≠ [] ∧ run = lead ++ tail ∧
      dotName name 0 before run = lead ++ '.' :: tail := by
  induction twice generalizing before with
  | @here gap first =>
    have nameUnbroken : ∀ c ∈ name, endsName c = false := fun c mem => unbroken c (by simp [mem])
    have last := dotName_of_isFirst filled (isFirst_nil filled) none []
    rw [List.append_nil, List.nil_append] at last
    refine ⟨gap ++ name, name, by simp [filled], filled, by simp, ?_⟩
    rw [dotName_of_isFirst_word filled first before filled nameUnbroken, last]
    simp [beginsAfter, endsBefore, dotName]
  | @later gap rest first behind ih =>
    have restUnbroken : ∀ c ∈ rest, endsName c = false := fun c mem => unbroken c (by simp [mem])
    obtain ⟨lead, tail, leadFilled, tailFilled, rfl, cut⟩ := ih restUnbroken none
    refine ⟨gap ++ (name ++ lead), tail, by simp [leadFilled], tailFilled, by simp, ?_⟩
    rw [dotName_of_isFirst_word filled first before (by simp [leadFilled]) restUnbroken, cut]
    simp

/-! ## All names -/

/-- A dot ends a name. -/
theorem endsName_dot : endsName '.' = true := by decide

/-- Behind a dot no name begins, so a name that has its dot gets no second one. -/
theorem beginsAfter_dot : beginsAfter (some '.') = false := by decide

/-- A dot before a text belongs to no word. -/
theorem words_dot (text : List Char) : words ('.' :: text) = words text :=
  words_append_cons endsName_dot [] text

/-- **Dots before words leave the words as they are.** -/
theorem words_dotted (valid : ∀ name ∈ names, IsClassName name) (text : List Char)
    (before : Option Char) : words (dotted names before text) = words text := by
  induction text using words_induction generalizing before with
  | word run unbroken =>
    rw [dotted_word valid unbroken]
    split
    · exact words_dot run
    · rfl
  | more lead c rest ends ihLead ihRest =>
    rw [dotted_append_cons valid ends, words_append_cons ends, words_append_cons ends, ihLead,
      ihRest]

/-- Dots that are there are not asked for again. By induction over the words, each of which has its
dot or needs none. -/
theorem dotted_dotted (valid : ∀ name ∈ names, IsClassName name) (text : List Char)
    (before : Option Char) :
    dotted names before (dotted names before text) = dotted names before text := by
  induction text using words_induction generalizing before with
  | word run unbroken =>
    rw [dotted_word valid unbroken]
    split
    next marked =>
      have passed := dotted_append_cons valid endsName_dot [] run before
      rw [List.nil_append] at passed
      rw [passed, dotted_word valid unbroken, beginsAfter_dot]
      simp [dotted]
    next unmarked => rw [dotted_word valid unbroken, if_neg unmarked]
  | more lead c rest ends ihLead ihRest =>
    rw [dotted_append_cons valid ends, dotted_append_cons valid ends, ihLead, ihRest]

variable {added : String}

/-- A class name is not empty. -/
theorem IsClassName.toList_ne_nil (valid : IsClassName added) : added.toList ≠ [] := fun empty =>
  valid.1 (String.toList_inj.mp empty)

/-- **A further name is put in** where it is asked for, whatever dots there are already. By
induction on the words of the text: a dot that was put in before ends no name and begins none. -/
theorem dotName_dotted (valid : ∀ name ∈ names, IsClassName name) (addedValid : IsClassName added)
    (text : List Char) (before : Option Char)
    (once : ∀ word ∈ words text, ¬ EndsTwice added.toList word) :
    dotName added.toList 0 before (dotted names before text) =
      dotted (names ++ [added]) before text := by
  have filled := addedValid.toList_ne_nil
  have bothValid : ∀ name ∈ names ++ [added], IsClassName name := by
    intro name mem
    rcases List.mem_append.mp mem with mem | mem
    · exact valid name mem
    · exact List.mem_singleton.mp mem ▸ addedValid
  induction text using words_induction generalizing before with
  | word run unbroken =>
    have runOnce : ¬ EndsTwice added.toList run := fun twice =>
      once run (by simp [words_of_unbroken unbroken, twice.ne_nil filled]) twice
    have same : run = added.toList ↔ String.ofList run = added := by
      rw [← String.toList_inj, String.toList_ofList]
    rw [dotted_word valid unbroken, dotted_word bothValid unbroken]
    simp only [List.mem_append, List.mem_singleton, ← same]
    split
    next marked =>
      have passed := dotName_append_cons filled addedValid.2 endsName_dot [] run before
        (Nat.zero_le _)
      rw [List.nil_append] at passed
      rw [passed, dotName_word filled unbroken runOnce, beginsAfter_dot, if_neg (by simp),
        if_pos ⟨.inl marked.1, marked.2⟩]
      rfl
    next unmarked =>
      rw [dotName_word filled unbroken runOnce]
      by_cases begins : beginsAfter before = true
      · have unlisted : String.ofList run ∉ names := fun mem => unmarked ⟨mem, begins⟩
        simp [begins, unlisted]
      · simp [begins]
  | more lead c rest ends ihLead ihRest =>
    rw [words_append_cons ends] at once
    rw [dotted_append_cons valid ends, dotted_append_cons bothValid ends,
      dotName_append_cons filled addedValid.2 ends _ _ _ (Nat.zero_le _),
      ihLead before fun word mem => once word (List.mem_append_left _ mem),
      ihRest (some c) fun word mem => once word (List.mem_append_right _ mem)]

/-- Without names nothing gets a dot. -/
theorem dotted_nil_names (text : List Char) (before : Option Char) :
    dotted [] before text = text := by
  induction text generalizing before with
  | nil => rfl
  | cons c text ih =>
    have none : isWhole [] before (c :: text) = false := by simp [isWhole]
    rw [dotted, none, ih]
    rfl

/-- The names of a list, put in one after the other. Dots end words and change none of them, so each
name finds the words of the given text. -/
theorem foldl_dotName (valid : ∀ name ∈ names, IsClassName name) {done : List String}
    (doneValid : ∀ name ∈ done, IsClassName name)
    (once : ∀ name ∈ names, ∀ word ∈ words text, ¬ EndsTwice name.toList word) :
    names.foldl (fun text name => dotName name.toList 0 none text) (dotted done none text) =
      dotted (done ++ names) none text := by
  induction names generalizing done with
  | nil => rw [List.foldl_nil, List.append_nil]
  | cons name names ih =>
    have nameValid := valid name List.mem_cons_self
    have nextValid : ∀ other ∈ done ++ [name], IsClassName other := by
      intro other mem
      rcases List.mem_append.mp mem with mem | mem
      · exact doneValid other mem
      · exact List.mem_singleton.mp mem ▸ nameValid
    rw [List.foldl_cons, dotName_dotted doneValid nameValid text none
      (once name List.mem_cons_self), ih (fun other mem => valid other (List.mem_cons_of_mem _ mem))
      nextValid fun other mem => once other (List.mem_cons_of_mem _ mem), List.append_assoc]
    rfl

/-! ## Words that are cut -/

/-- **No search makes words fewer**, and a word that ends in the name twice makes them more. Such a
word is cut where the name is found inside of it, and the words on both sides are counted. -/
theorem length_words_dotName (valid : IsClassName added) (text : List Char)
    (before : Option Char) :
    (words text).length ≤ (words (dotName added.toList 0 before text)).length ∧
      ∀ word ∈ words text, EndsTwice added.toList word →
        (words text).length < (words (dotName added.toList 0 before text)).length := by
  have filled := valid.toList_ne_nil
  induction text using words_induction generalizing before with
  | word run unbroken =>
    by_cases twice : EndsTwice added.toList run
    · obtain ⟨lead, tail, leadFilled, tailFilled, rfl, cut⟩ :=
        exists_dotName_of_endsTwice filled unbroken twice before
      have one : (words (lead ++ tail)).length = 1 := by
        simp [words_of_unbroken unbroken, leadFilled]
      have two : (words (lead ++ '.' :: tail)).length = 2 := by
        rw [words_append_cons endsName_dot,
          words_of_unbroken fun c mem => unbroken c (List.mem_append_left _ mem),
          words_of_unbroken fun c mem => unbroken c (List.mem_append_right _ mem)]
        simp [leadFilled, tailFilled]
      rw [cut, one, two]
      exact ⟨by decide, fun _ _ _ => by decide⟩
    · have kept : words (dotName added.toList 0 before run) = words run := by
        rw [dotName_word filled unbroken twice]
        split
        · exact words_dot run
        · rfl
      rw [kept]
      refine ⟨Nat.le_refl _, fun word mem other => ?_⟩
      rw [words_of_unbroken unbroken] at mem
      split at mem
      · exact absurd mem List.not_mem_nil
      · exact absurd (List.mem_singleton.mp mem ▸ other) twice
  | more lead c rest ends ihLead ihRest =>
    obtain ⟨leadLe, leadLt⟩ := ihLead before
    obtain ⟨restLe, restLt⟩ := ihRest (some c)
    rw [dotName_append_cons filled valid.2 ends _ _ _ (Nat.zero_le _), words_append_cons ends,
      words_append_cons ends, List.length_append, List.length_append]
    refine ⟨Nat.add_le_add leadLe restLe, fun word mem twice => ?_⟩
    rcases List.mem_append.mp mem with mem | mem
    · exact Nat.add_lt_add_of_lt_of_le (leadLt word mem twice) restLe
    · exact Nat.add_lt_add_of_le_of_lt leadLe (restLt word mem twice)

/-- Dots that are put in for several names only ever make more words, by induction on the names. -/
theorem length_words_foldl (valid : ∀ name ∈ names, IsClassName name) (text : List Char) :
    (words text).length ≤
      (words (names.foldl (fun text name => dotName name.toList 0 none text) text)).length := by
  induction names generalizing text with
  | nil => exact Nat.le_refl _
  | cons name names ih =>
    exact Nat.le_trans (length_words_dotName (valid name List.mem_cons_self) text none).1
      (ih (fun other mem => valid other (List.mem_cons_of_mem _ mem)) _)

/-- A word that ends in one of the names twice is cut in the end. Earlier names may cut it first;
the number of words has then grown already, and it never shrinks again. -/
theorem length_words_foldl_lt (valid : ∀ name ∈ names, IsClassName name) {name : String}
    (mem : name ∈ names) {word : List Char} (listed : word ∈ words text)
    (twice : EndsTwice name.toList word) : (words text).length <
      (words (names.foldl (fun text name => dotName name.toList 0 none text) text)).length := by
  induction names generalizing text with
  | nil => exact absurd mem List.not_mem_nil
  | cons first names ih =>
    have firstValid := valid first List.mem_cons_self
    have restValid := fun other mem => valid other (List.mem_cons_of_mem first mem)
    obtain ⟨le, lt⟩ := length_words_dotName firstValid text none
    by_cases cut : ∃ word ∈ words text, EndsTwice first.toList word
    · obtain ⟨word, listed, twice⟩ := cut
      exact Nat.lt_of_lt_of_le (lt word listed twice) (length_words_foldl restValid _)
    · have once : ∀ word ∈ words text, ¬ EndsTwice first.toList word := fun word listed twice =>
        cut ⟨word, listed, twice⟩
      have later : name ∈ names := by
        rcases List.mem_cons.mp mem with rfl | mem
        · exact absurd twice (once word listed)
        · exact mem
      have kept : words (dotName first.toList 0 none text) = words text := by
        have put := dotName_dotted (fun _ mem => absurd mem List.not_mem_nil) firstValid text none
          once
        rw [dotted_nil_names] at put
        rw [put, words_dotted (by simpa using firstValid)]
      have behind := ih restValid later (kept ▸ listed)
      rwa [kept] at behind

/-- **Dots are put before exactly the places that are asked for, unless a word ends in one of the
names twice.** Without such a word, doing it again changes nothing. -/
theorem dotNames_eq_dotted_iff (names : List String) (valid : ∀ name ∈ names, IsClassName name)
    (selector : String) :
    (dotNames names selector = String.ofList (dotted names none selector.toList) ↔
      ∀ name ∈ names, ∀ word ∈ words selector.toList, ¬ EndsTwice name.toList word) ∧
    ((∀ name ∈ names, ∀ word ∈ words selector.toList, ¬ EndsTwice name.toList word) →
      dotNames names (dotNames names selector) = dotNames names selector) := by
  have put : ∀ text, (∀ name ∈ names, ∀ word ∈ words text, ¬ EndsTwice name.toList word) →
      names.foldl (fun text name => dotName name.toList 0 none text) text =
        dotted names none text := by
    intro text once
    have folded : names.foldl _ (dotted [] none text) = dotted ([] ++ names) none text :=
      foldl_dotName valid (by simp) once
    rwa [dotted_nil_names, List.nil_append] at folded
  refine ⟨⟨fun same name mem word listed twice => ?_, fun once => ?_⟩, fun once => ?_⟩
  · -- a word that ends in a name twice is cut in two, and dots before whole words cut none
    have more := length_words_foldl_lt valid mem listed twice
    have chars := congrArg String.toList same
    rw [dotNames, String.toList_ofList, String.toList_ofList] at chars
    rw [chars, words_dotted valid] at more
    exact Nat.lt_irrefl _ more
  · rw [dotNames, put _ once]
  · -- dots change no word, so the second pass meets the same words
    have once' : ∀ name ∈ names, ∀ word ∈ words (dotted names none selector.toList),
        ¬ EndsTwice name.toList word := by
      rwa [words_dotted valid]
    have first : dotNames names selector = String.ofList (dotted names none selector.toList) := by
      rw [dotNames, put _ once]
    rw [first, dotNames, String.toList_ofList, put _ once', dotted_dotted valid]

/-- One name begins another one, and both stand next to each other in a longer word. -/
theorem dotNames_eq_dotted_iff_links :
    let names := ["link__1", "link__12"]
    let selector := "link__1:hover .link__12, link__12link__1 > link__12"
    let put := ".link__1:hover .link__12, link__12link__1 > .link__12"
    dotNames names selector = put ∧
      (∀ name ∈ names, ∀ word ∈ words selector.toList, ¬ EndsTwice name.toList word) ∧
      dotNames names put = put := by
  intro names selector put
  have valid : ∀ name ∈ names, IsClassName name := by decide +kernel
  have found : dotNames names selector = put := by decide +kernel
  have asked : dotNames names selector = String.ofList (dotted names none selector.toList) := by
    decide +kernel
  obtain ⟨exact_iff, again⟩ := dotNames_eq_dotted_iff names valid selector
  have once := exact_iff.mp asked
  have kept := again once
  rw [found] at kept
  exact ⟨found, once, kept⟩

/-- **The second of two neighbouring occurrences gets a dot** that is not asked for, and doing it
again gives the first one a dot too. -/
theorem dotNames_twice :
    let names := ["a_x__b4c01d58"]
    let selector := "a_x__b4c01d58a_x__b4c01d58"
    (∀ name ∈ names, IsClassName name) ∧
      String.ofList (dotted names none selector.toList) = selector ∧
      dotNames names selector = "a_x__b4c01d58.a_x__b4c01d58" ∧
      dotNames names (dotNames names selector) = ".a_x__b4c01d58.a_x__b4c01d58" := by
  decide +kernel

end StyleGraph.Static
