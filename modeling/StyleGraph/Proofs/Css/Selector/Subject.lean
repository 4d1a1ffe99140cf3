import Mathlib.Data.List.DropRight
import StyleGraph.Proofs.Css.Selector.Written

/-!
# The subject of a selector

The elements that a selector is about are those of one compound: the last one, or the one that the
pseudo-elements at the end of the selector hang off. A pseudo-element stands behind a combinator
that has no mark of its own, so the subject is found by passing such combinators from the right
(`Selector.subject`).

Which combinators are passed is a parameter: all three kinds that introduce a pseudo-element, or
only the first of them. Where a selector ends in no `::slotted(…)` and no `::part(…)` this makes no
difference (`Selector.subjectIndex_congr`); elsewhere passing fewer kinds leads to a compound behind
the subject (`Selector.subjectIndex_lt`).
-/

set_option autoImplicit false

namespace StyleGraph.Css

/-- Whether a pseudo-element follows a combinator. -/
def Combinator.introducesElement : Combinator → Bool
  | .pseudoElement | .slotAssignment | .part => true
  | _ => false

namespace Selector

section

variable (passes : Combinator → Bool) (selector : Selector)

/-- The combinators at the end of a selector that are passed on the way to its subject. -/
def trailing : List Combinator := selector.combinators.rtakeWhile passes

/-- The number of compounds before the subject. -/
def subjectIndex : Nat := (selector.combinators.rdropWhile passes).length

/-- The compound that those behind trailing combinators hang off. -/
def subject : List Component := (selector.compounds[selector.subjectIndex passes]?).getD []

end

/-! ## Passing fewer combinators -/

section

variable {passes fewer : Combinator → Bool} {selector : Selector}
  (among : ∀ joint, fewer joint = true → passes joint = true)

include among

/-- What is left when fewer items go from the end begins with what is left when more go. By
induction from the end, where both stop or only the stricter one does. -/
private theorem rdropWhile_eq_append (joints : List Combinator) :
    joints.rdropWhile fewer =
      joints.rdropWhile passes ++ (joints.rtakeWhile passes).rdropWhile fewer := by
  induction joints using List.reverseRecOn with
  | nil => rfl
  | append_singleton joints joint ih =>
    by_cases passed : passes joint = true
    · rw [List.rdropWhile_concat_pos _ _ _ passed, List.rtakeWhile_concat_pos _ _ _ passed]
      by_cases few : fewer joint = true
      · rw [List.rdropWhile_concat_pos _ _ _ few, List.rdropWhile_concat_pos _ _ _ few, ih]
      · rw [List.rdropWhile_concat_neg _ _ _ few, List.rdropWhile_concat_neg _ _ _ few,
          ← List.append_assoc, List.rdropWhile_append_rtakeWhile]
    · have few : ¬ fewer joint = true := fun few => passed (among joint few)
      rw [List.rdropWhile_concat_neg _ _ _ passed, List.rtakeWhile_concat_neg _ _ _ passed,
        List.rdropWhile_concat_neg _ _ _ few, List.rdropWhile_nil, List.append_nil]

/-- If all trailing combinators are passed the subject is the same. -/
theorem subjectIndex_congr (all : ∀ joint ∈ selector.trailing passes, fewer joint = true) :
    selector.subjectIndex fewer = selector.subjectIndex passes := by
  have none : (selector.trailing passes).rdropWhile fewer = [] :=
    List.rdropWhile_eq_nil_iff.mpr all
  rw [subjectIndex, rdropWhile_eq_append among]
  rw [trailing] at none
  rw [none, List.append_nil, subjectIndex]

/-- If one of the trailing combinators is not passed, the compound that is found instead of the
subject stands behind it. -/
theorem subjectIndex_lt {joint : Combinator} (mem : joint ∈ selector.trailing passes)
    (kept : fewer joint = false) :
    selector.subjectIndex passes < selector.subjectIndex fewer := by
  have some : (selector.trailing passes).rdropWhile fewer ≠ [] := by
    intro none
    have passed := List.rdropWhile_eq_nil_iff.mp none joint mem
    rw [kept] at passed
    cases passed
  have positive := List.length_pos_iff.mpr some
  rw [trailing] at positive
  rw [subjectIndex, subjectIndex, rdropWhile_eq_append among, List.length_append]
  omega

end

/-! ## Written selectors around their subject -/

/-- The combinators among components. -/
private def joints (components : List Component) : List Combinator :=
  components.filterMap Component.combinator?

/-- A run without combinators has no joints. -/
private theorem joints_of_unbroken {run : List Component}
    (unbroken : ∀ component ∈ run, component.isCombinator = false) : joints run = [] := by
  refine List.filterMap_eq_nil_iff.mpr fun component mem => ?_
  have simple := unbroken component mem
  rwa [Component.isCombinator, Option.isSome_eq_false_iff, Option.isNone_iff_eq_none] at simple

/-- There are as many joints as combinators. -/
private theorem length_joints (components : List Component) :
    (joints components).length = (components.filter Component.isCombinator).length := by
  rw [joints, List.length_filterMap_eq_countP, List.countP_eq_length_filter]
  rfl

/-- Components in written order around a subject: before it a combinator that is not passed, or
nothing, and behind it combinators that are passed, with their compounds. -/
structure IsSubject (passes : Combinator → Bool) (lead compound hanging : List Component) :
    Prop where
  lead : lead = [] ∨ ∃ start joint, lead = start ++ [.combinator joint] ∧ passes joint = false
  compound : ∀ component ∈ compound, component.isCombinator = false
  hangs : hanging = [] ∨ ∃ joint rest, hanging = .combinator joint :: rest
  hanging : ∀ joint, .combinator joint ∈ hanging → passes joint = true

namespace IsSubject

variable {passes : Combinator → Bool} {lead compound hanging : List Component}
  {selector : Selector}

/-- Another compound can stand in the subject's place. -/
theorem with_compound (isSubject : IsSubject passes lead compound hanging)
    {other : List Component} (unbroken : ∀ component ∈ other, component.isCombinator = false) :
    IsSubject passes lead other hanging :=
  { isSubject with compound := unbroken }

/-- The compounds of a selector are the subject, those before it and those behind it, which do not
depend on it. -/
theorem exists_runs (isSubject : IsSubject passes lead compound hanging) :
    ∃ before behind, before.length = (joints lead).length ∧
      ∀ run : List Component, (∀ component ∈ run, component.isCombinator = false) →
        runs Component.isCombinator (lead ++ run ++ hanging) = before ++ run :: behind := by
  have hung : ∃ behind, ∀ run : List Component,
      (∀ component ∈ run, component.isCombinator = false) →
        runs Component.isCombinator (run ++ hanging) = run :: behind := by
    rcases isSubject.hangs with rfl | ⟨joint, rest, rfl⟩
    · refine ⟨[], fun run unbroken => ?_⟩
      rw [List.append_nil, runs_of_unbroken unbroken]
    · refine ⟨runs Component.isCombinator rest, fun run unbroken => ?_⟩
      rw [runs_append_break run rfl, runs_of_unbroken unbroken, List.singleton_append]
  obtain ⟨behind, hung⟩ := hung
  rcases isSubject.lead with rfl | ⟨start, joint, rfl, -⟩
  · exact ⟨[], behind, rfl, hung⟩
  · refine ⟨runs Component.isCombinator start, behind, ?_, fun run unbroken => ?_⟩
    · rw [length_runs, length_joints, List.filter_append, List.length_append]
      rfl
    · rw [List.append_assoc, List.append_assoc, List.singleton_append,
        runs_append_break start rfl, hung run unbroken]

variable (isSubject : IsSubject passes lead compound hanging)
  (written : selector.written = lead ++ compound ++ hanging)

include isSubject written

/-- The combinators are those before the subject and those that hang off it. -/
theorem combinators_eq : selector.combinators = joints lead ++ joints hanging := by
  have split : selector.combinators = joints (lead ++ compound ++ hanging) := by
    rw [combinators, written, joints]
  rw [split, joints, List.filterMap_append, List.filterMap_append]
  have none := joints_of_unbroken isSubject.compound
  rw [joints] at none
  rw [none, List.append_nil, joints, joints]

/-- The subject's compound is found by counting the joints before it. The joints behind the subject
are passed, and the one right before it is not. -/
theorem subjectIndex_eq : selector.subjectIndex passes = (joints lead).length := by
  have passed : ∀ joint ∈ joints hanging, passes joint = true := by
    intro joint mem
    obtain ⟨component, listed, is⟩ := List.mem_filterMap.mp mem
    cases component with
    | combinator other =>
      cases is
      exact isSubject.hanging joint listed
    | _ => cases is
  have kept : (joints lead).rdropWhile passes = joints lead := by
    rcases isSubject.lead with rfl | ⟨start, joint, rfl, stops⟩
    · rfl
    · have last : joints (start ++ [.combinator joint]) = joints start ++ [joint] := by
        rw [joints, List.filterMap_append]
        rfl
      rw [last, List.rdropWhile_concat_neg _ _ _ (by rw [stops]; exact Bool.false_ne_true)]
  rw [subjectIndex, combinators_eq isSubject written, List.rdropWhile, List.reverse_append,
    List.dropWhile_append_of_pos (fun joint mem => passed joint (List.mem_reverse.mp mem))]
  exact congrArg List.length kept

/-- **The compound is the subject.** -/
theorem subject_eq : selector.subject passes = compound := by
  obtain ⟨before, behind, length, cut⟩ := isSubject.exists_runs
  have compounds : selector.compounds = before ++ compound :: behind := by
    rw [← cut compound isSubject.compound, ← written]
    rfl
  rw [subject, subjectIndex_eq isSubject written, compounds, ← length,
    List.getElem?_append_right (Nat.le_refl _), Nat.sub_self]
  rfl

/-- Another compound in the subject's place changes the subject and nothing else. The joints stay,
so every other compound is found where it was. -/
theorem compounds_eq_set {other : Selector} {changed : List Component}
    (unbroken : ∀ component ∈ changed, component.isCombinator = false)
    (otherWritten : other.written = lead ++ changed ++ hanging) :
    other.combinators = selector.combinators ∧
      other.compounds = selector.compounds.set (selector.subjectIndex passes) changed := by
  constructor
  · rw [combinators_eq isSubject written,
      combinators_eq (isSubject.with_compound unbroken) otherWritten]
  · obtain ⟨before, behind, length, cut⟩ := isSubject.exists_runs
    have compounds : selector.compounds = before ++ compound :: behind := by
      rw [← cut compound isSubject.compound, ← written]
      rfl
    have otherCompounds : other.compounds = before ++ changed :: behind := by
      rw [← cut changed unbroken, ← otherWritten]
      rfl
    rw [compounds, otherCompounds, subjectIndex_eq isSubject written, ← length,
      List.set_append_right _ _ (Nat.le_refl _), Nat.sub_self]
    rfl

end IsSubject

/-! ## Finding the subject -/

/-- Whether a component is passed on the way to the start of the subject. -/
def isPassed (passes : Combinator → Bool) (component : Component) : Bool :=
  !component.combinator?.any fun joint => !passes joint

/-- Of a combinator only its kind is asked about. -/
theorem isPassed_combinator (passes : Combinator → Bool) (joint : Combinator) :
    isPassed passes (.combinator joint) = passes joint :=
  Bool.not_not _

/-- **Every list of components has a subject**: it starts behind the last combinator that is not
passed, and ends at the first combinator behind its start. -/
theorem isSubject_of_components (passes : Combinator → Bool) (components : List Component) :
    IsSubject passes (components.rdropWhile (isPassed passes))
      ((components.rtakeWhile (isPassed passes)).takeWhile fun component =>
        !component.isCombinator)
      ((components.rtakeWhile (isPassed passes)).dropWhile fun component =>
        !component.isCombinator) where
  lead := by
    by_cases none : components.rdropWhile (isPassed passes) = []
    · exact .inl none
    · have stops := List.rdropWhile_last_not (isPassed passes) components none
      refine .inr ?_
      cases last : (components.rdropWhile (isPassed passes)).getLast none with
      | combinator joint =>
        rw [last, isPassed_combinator, Bool.not_eq_true] at stops
        exact ⟨_, joint, by rw [← last, List.dropLast_append_getLast none], stops⟩
      | _ =>
        rw [last] at stops
        exact absurd rfl stops
  compound := by
    intro component mem
    have simple := List.mem_takeWhile_imp mem
    rwa [Bool.not_eq_true'] at simple
  hangs := by
    have stops := List.head?_dropWhile_not (fun component : Component => !component.isCombinator)
      (components.rtakeWhile (isPassed passes))
    cases hung : (components.rtakeWhile (isPassed passes)).dropWhile fun component =>
        !component.isCombinator with
    | nil => exact .inl rfl
    | cons component rest =>
      rw [hung] at stops
      cases component with
      | combinator joint => exact .inr ⟨joint, rest, rfl⟩
      | _ => cases stops
  hanging := by
    intro joint mem
    have passed := List.mem_rtakeWhile_imp ((List.dropWhile_sublist _).subset mem)
    rwa [isPassed_combinator] at passed

end Selector

end StyleGraph.Css
