import Mathlib.Data.List.TakeDrop
import StyleGraph.Proofs.Css.Selector.Matching
import StyleGraph.Proofs.Css.Selector.Subject
import StyleGraph.Stable.Transform

/-!
# Boosted selectors

A boosted selector has one class more often than before, and is as it was otherwise. A class that is
asked for again asks for nothing new, so the selector matches what it matched; but each time counts,
so it weighs more.

The class is the last accepted one of a compound: the subject, but as the boost finds it. The boost
passes combinators of the first kind only (`Combinator.isPseudoElement`). Pseudo-elements such as
`::before` stand behind one, and the compound that they hang off is boosted (`rewrite_subject`).
What `::slotted(…)` and `::part(…)` hang off is not: the boost takes these for the last compound,
and they have no class of their own.
-/

set_option autoImplicit false

namespace StyleGraph.Css.Component

/-! ## Repeated components -/

/-- A simple selector that is repeated asks for nothing new. The copies are looked at behind what
goes before, where the same node is still the one that has to match. -/
theorem allMatch_repeated {Node : Type} (document : Document Node) (context : Context Node)
    (First : Node → Prop) {component : Component} (simple : component.combinator? = none)
    (times : Nat) (before after : List Component) (node : Node) :
    AllMatch document context First
        (before ++ component :: List.replicate times component ++ after) node ↔
      AllMatch document context First (before ++ component :: after) node := by
  induction before generalizing node with
  | nil =>
    induction times with
    | zero => rfl
    | succ times ih =>
      simp only [List.nil_append, List.replicate_succ, List.cons_append, AllMatch, simple] at ih ⊢
      rw [ih, and_self_left]
  | cons other before ih =>
    simp only [List.cons_append, AllMatch, List.append_assoc] at ih ⊢
    split
    · exact exists_congr fun next => and_congr_right fun _ => ih next
    · exact and_congr_right fun _ => ih node

/-- A class that is repeated counts each time. Specificities are added up in order, so the copies
can be counted where they stand. -/
theorem totalSpecificity_repeated (nesting : Specificity) (name : String) (times : Nat)
    (before after : List Component) :
    totalSpecificity nesting
        (before ++ .class name :: List.replicate times (.class name) ++ after) =
      totalSpecificity nesting (before ++ .class name :: after) + { classes := times } := by
  have copies : totalSpecificity nesting (List.replicate times (.class name)) =
      { classes := times } := by
    induction times with
    | zero => rfl
    | succ times ih =>
      rw [List.replicate_succ, totalSpecificity, ih, specificity]
      simp only [Specificity.add_eq, Nat.add_comm]
  simp only [totalSpecificity_append, totalSpecificity, copies, Specificity.add_eq,
    Specificity.mk.injEq]
  omega

end StyleGraph.Css.Component

namespace StyleGraph.Stable.Boost

open Css

variable {boost : Boost} {selector boosted : Selector}

/-! ## Boosted compounds -/

/-- A compound divided at its last accepted class. -/
structure Divides (boost : Boost) (compound before : List Component) (name : String)
    (after : List Component) : Prop where
  compound : compound = before ++ .class name :: after
  accepted : boost.accepts name = true
  last : ∀ other, .class other ∈ after → boost.accepts other = false

/-- The boost counts classes it accepts, and nothing else. -/
theorem isTarget_iff {component : Component} : boost.isTarget component = true ↔
    ∃ name, component = .class name ∧ boost.accepts name = true := by
  cases component <;> simp [isTarget, Component.class?]

/-- For a class only its name is asked about. -/
theorem isTarget_class (boost : Boost) (name : String) :
    boost.isTarget (.class name) = boost.accepts name := rfl

/-- **A compound is boosted by repeating its last accepted class**, if it has one. The last accepted
class is found by reading the compound from its end, where all that is passed over is known not to
be accepted. -/
theorem repeatIn_cases (boost : Boost) (compound : List Component) :
    (boost.repeatIn compound = none ∧
      ∀ name, .class name ∈ compound → boost.accepts name = false) ∨
    ∃ before name after, boost.Divides compound before name after ∧
      boost.repeatIn compound =
        some (before ++ .class name :: List.replicate boost.times (.class name) ++ after) := by
  rw [repeatIn, List.span_eq_takeWhile_dropWhile]
  have whole := List.takeWhile_append_dropWhile (p := fun component => !boost.isTarget component)
    (l := compound.reverse)
  have stops := List.head?_dropWhile_not (fun component => !boost.isTarget component)
    compound.reverse
  cases found : compound.reverse.dropWhile fun component => !boost.isTarget component with
  | nil =>
    refine .inl ⟨rfl, fun name mem => ?_⟩
    have skipped := List.dropWhile_eq_nil_iff.mp found _ (List.mem_reverse.mpr mem)
    rwa [isTarget_class, Bool.not_eq_true'] at skipped
  | cons target rest =>
    rw [found] at whole stops
    obtain ⟨name, rfl, accepted⟩ : ∃ name, target = .class name ∧ boost.accepts name = true := by
      apply isTarget_iff.mp
      simpa using stops
    refine .inr ⟨rest.reverse, name, _, ⟨?_, accepted, fun other mem => ?_⟩, rfl⟩
    · have turned := congrArg List.reverse whole
      rw [List.reverse_append, List.reverse_cons, List.reverse_reverse, List.append_assoc,
        List.singleton_append] at turned
      exact turned.symm
    · have skipped := List.mem_takeWhile_imp (List.mem_reverse.mp mem)
      rwa [isTarget_class, Bool.not_eq_true'] at skipped

/-- Only the subject of a selector is boosted. -/
theorem exists_rewriteWritten (boost : Boost) (components : List Component) :
    ∃ lead compound hanging,
      Selector.IsSubject Combinator.isPseudoElement lead compound hanging ∧
      components = lead ++ compound ++ hanging ∧
      boost.rewriteWritten components =
        (boost.repeatIn compound).map fun boosted => lead ++ boosted ++ hanging := by
  refine ⟨_, _, _, Selector.isSubject_of_components Combinator.isPseudoElement components, ?_, rfl⟩
  rw [List.append_assoc, List.takeWhile_append_dropWhile, List.rdropWhile_append_rtakeWhile]

/-! ## Boosted selectors -/

/-- A selector is boosted in its subject, if that has an accepted class. The selector is cut in
three, of which the boost changes the middle part only, or nothing. -/
theorem rewrite_cases (positive : 0 < boost.times) (selector : Selector) :
    ∃ lead compound hanging,
      Selector.IsSubject Combinator.isPseudoElement lead compound hanging ∧
      selector.written = lead ++ compound ++ hanging ∧
      ((boost.rewrite selector = none ∧
          ∀ name, .class name ∈ compound → boost.accepts name = false) ∨
        ∃ before name after boosted, boost.Divides compound before name after ∧
          boost.rewrite selector = some boosted ∧
          boosted.written = lead ++
            (before ++ .class name :: List.replicate boost.times (.class name) ++ after) ++
            hanging) := by
  obtain ⟨lead, compound, hanging, isSubject, written, rewritten⟩ :=
    boost.exists_rewriteWritten selector.written
  refine ⟨lead, compound, hanging, isSubject, written, ?_⟩
  rw [rewrite, if_neg (Nat.ne_of_gt positive), rewritten]
  rcases boost.repeatIn_cases compound with ⟨none, rejected⟩ | ⟨before, name, after, divides, some⟩
  · rw [none]
    exact .inl ⟨rfl, rejected⟩
  · rw [some]
    refine .inr ⟨before, name, after, _, divides, rfl, ?_⟩
    exact Selector.turn_turn _

/-- A boost of no repetitions changes nothing. -/
theorem times_pos_of_rewrite (changed : boost.rewrite selector = some boosted) :
    0 < boost.times := by
  rw [rewrite] at changed
  split at changed
  next => cases changed
  next many => exact Nat.pos_of_ne_zero many

/-- A boosted selector is written with more copies of one class. What stands before the class is
known too, since the last accepted class is the one repeated. -/
theorem exists_of_rewrite (changed : boost.rewrite selector = some boosted) :
    ∃ lead before name after hanging,
      Selector.IsSubject Combinator.isPseudoElement lead (before ++ .class name :: after) hanging ∧
      boost.Divides (before ++ .class name :: after) before name after ∧
      selector.written = lead ++ (before ++ .class name :: after) ++ hanging ∧
      boosted.written = lead ++
        (before ++ .class name :: List.replicate boost.times (.class name) ++ after) ++
        hanging := by
  obtain ⟨lead, compound, hanging, isSubject, written, ⟨unchanged, -⟩ |
    ⟨before, name, after, other, divides, rewritten, otherWritten⟩⟩ :=
    rewrite_cases (times_pos_of_rewrite changed) selector
  · rw [unchanged] at changed
    cases changed
  · cases rewritten.symm.trans changed
    obtain rfl := divides.compound
    exact ⟨lead, before, name, after, hanging, isSubject, divides, written, otherWritten⟩

/-- In the order in which matching looks at components, the copies stand behind the class too.
Compounds are turned around for it, and the copies with them, but copies of one class look the same
either way. -/
theorem exists_components_of_rewrite (changed : boost.rewrite selector = some boosted) :
    ∃ before name after, selector.components = before ++ .class name :: after ∧
      boosted.components =
        before ++ .class name :: List.replicate boost.times (.class name) ++ after := by
  obtain ⟨lead, before, name, after, hanging, -, -, written, boostedWritten⟩ :=
    exists_of_rewrite changed
  have turned (selector : Selector) :
      selector.components = Selector.turn Component.isCombinator selector.written :=
    (Selector.turn_turn selector.components).symm
  obtain ⟨start, stop, around⟩ : ∃ start stop, ∀ run : List Component,
      (∀ component ∈ run, component.isCombinator = false) →
        Selector.turn Component.isCombinator ((lead ++ before) ++ run ++ (after ++ hanging)) =
          start ++ run ++ stop :=
    Selector.exists_turn_eq (lead ++ before) (after ++ hanging)
  have copies (times : Nat) : Selector.turn Component.isCombinator
        (lead ++ (before ++ .class name :: List.replicate times (.class name) ++ after) ++
          hanging) =
      start ++ .class name :: List.replicate times (.class name) ++ stop := by
    rw [← around (.class name :: List.replicate times (.class name))]
    · simp only [List.append_assoc, List.cons_append]
    · intro component mem
      rcases List.mem_cons.mp mem with rfl | copy
      · rfl
      · obtain rfl := List.eq_of_mem_replicate copy
        rfl
  refine ⟨start, name, stop, ?_, ?_⟩
  · rw [turned, written]
    simpa only [List.replicate_zero, List.append_assoc, List.cons_append, List.nil_append]
      using copies 0
  · rw [turned, boostedWritten, copies]

/-! ## Safety -/

/-- A boosted selector matches what it matched before. -/
theorem matches_of_rewrite {Node : Type} (changed : boost.rewrite selector = some boosted)
    (document : Document Node) (context : Context Node) (node : Node) :
    boosted.Matches document context node ↔ selector.Matches document context node := by
  obtain ⟨before, name, after, components, boostedComponents⟩ :=
    exists_components_of_rewrite changed
  rw [Selector.Matches, Selector.Matches, Selector.matchesUpTo_eq, Selector.matchesUpTo_eq,
    components, boostedComponents]
  exact Component.allMatch_repeated document context _ rfl boost.times before after node

/-- A boosted selector weighs as many classes more as there are copies. -/
theorem specificity_of_rewrite (changed : boost.rewrite selector = some boosted)
    (nesting : Specificity) :
    boosted.specificity nesting = selector.specificity nesting + { classes := boost.times } := by
  obtain ⟨before, name, after, components, boostedComponents⟩ :=
    exists_components_of_rewrite changed
  have total (selector : Selector) : selector.specificity nesting =
      Component.totalSpecificity nesting selector.components := by
    cases selector
    rw [Selector.specificity, Selector.components]
  rw [total, total, components, boostedComponents]
  exact Component.totalSpecificity_repeated nesting name boost.times before after

/-- **Boosting is safe.** A boosted selector matches exactly what it matched before in every
document, it weighs as many classes more as it is repeated, and it is written with that many more
copies of one class, right behind it: the last accepted class of its compound. -/
theorem rewrite_safe (changed : boost.rewrite selector = some boosted) :
    (∀ {Node : Type} (document : Document Node) (context : Context Node) (node : Node),
      boosted.Matches document context node ↔ selector.Matches document context node) ∧
    (∀ nesting : Specificity, boosted.specificity nesting =
      selector.specificity nesting + { classes := boost.times }) ∧
    ∃ lead before name after hanging,
      Selector.IsSubject Combinator.isPseudoElement lead (before ++ .class name :: after) hanging ∧
      boost.Divides (before ++ .class name :: after) before name after ∧
      selector.written = lead ++ (before ++ .class name :: after) ++ hanging ∧
      boosted.written = lead ++
        (before ++ .class name :: List.replicate boost.times (.class name) ++ after) ++ hanging :=
  ⟨matches_of_rewrite changed, specificity_of_rewrite changed, exists_of_rewrite changed⟩

/-- `.card .title.active::before`, in matching order. -/
def titleSelector : Selector :=
  .mk [.pseudoElement (.known "before"), .combinator .pseudoElement, .class "title",
    .class "active", .combinator .descendant, .class "card"] { hasPseudoElement := true }

/-- `.card .title.active.active.active::before`, in matching order. -/
def boostedTitle : Selector :=
  .mk [.pseudoElement (.known "before"), .combinator .pseudoElement, .class "title",
    .class "active", .class "active", .class "active", .combinator .descendant, .class "card"] {}

/-- Boosted twice, the selector weighs five classes instead of three. -/
theorem rewrite_safe_title :
    Boost.rewrite { times := 2 } titleSelector = some boostedTitle ∧
    (∀ {Node : Type} (document : Document Node) (context : Context Node) (node : Node),
      boostedTitle.Matches document context node ↔
        titleSelector.Matches document context node) ∧
    titleSelector.specificity {} = { classes := 3, types := 1 } ∧
    boostedTitle.specificity {} = { classes := 5, types := 1 } := by
  have changed : Boost.rewrite { times := 2 } titleSelector = some boostedTitle := rfl
  obtain ⟨same, weight, -⟩ := rewrite_safe changed
  refine ⟨changed, same, rfl, ?_⟩
  rw [weight]
  rfl

/-! ## Which compound is boosted -/

/-- A selector is boosted if the compound that the boost looks at has an accepted class. So whether
a selector is boosted can be told without boosting it. -/
theorem isSome_rewrite_iff (positive : 0 < boost.times) (selector : Selector) :
    (boost.rewrite selector).isSome = true ↔
      ∃ name, .class name ∈ selector.subject Combinator.isPseudoElement ∧
        boost.accepts name = true := by
  obtain ⟨lead, compound, hanging, isSubject, written, found⟩ := rewrite_cases positive selector
  rw [isSubject.subject_eq written]
  rcases found with ⟨none, rejected⟩ | ⟨before, name, after, boosted, divides, some, -⟩
  · rw [none]
    refine iff_of_false Bool.false_ne_true ?_
    rintro ⟨name, mem, accepted⟩
    rw [rejected name mem] at accepted
    cases accepted
  · rw [some]
    refine iff_of_true rfl ⟨name, ?_, divides.accepted⟩
    rw [divides.compound]
    exact List.mem_append_right _ List.mem_cons_self

/-- Boosting changes the compound that the boost looks at, and nothing else. A class is no
combinator, so the copies do not cut the compound. -/
theorem compounds_of_rewrite (changed : boost.rewrite selector = some boosted) :
    boosted.combinators = selector.combinators ∧
    ∃ before name after,
      boost.Divides (selector.subject Combinator.isPseudoElement) before name after ∧
      boosted.compounds =
        selector.compounds.set (selector.subjectIndex Combinator.isPseudoElement)
          (before ++ .class name :: List.replicate boost.times (.class name) ++ after) := by
  obtain ⟨lead, before, name, after, hanging, isSubject, divides, written, boostedWritten⟩ :=
    exists_of_rewrite changed
  have unbroken : ∀ component ∈
      before ++ .class name :: List.replicate boost.times (.class name) ++ after,
      component.isCombinator = false := by
    have plain := isSubject.compound
    simp only [List.forall_mem_append, List.forall_mem_cons, List.mem_replicate] at plain ⊢
    exact ⟨⟨plain.1, rfl, fun _ copy => copy.2 ▸ rfl⟩, plain.2.2⟩
  obtain ⟨combinators, compounds⟩ := isSubject.compounds_eq_set written unbroken boostedWritten
  refine ⟨combinators, before, name, after, ?_, compounds⟩
  rw [isSubject.subject_eq written]
  exact divides

/-- The joints passed over are among those that introduce an element. The joint before a part is
not, which is why a subject before `::part()` is not boosted. -/
private theorem introducesElement_of_isPseudoElement (joint : Combinator)
    (passed : joint.isPseudoElement = true) : joint.introducesElement = true := by
  cases joint <;> first | rfl | cases passed

/-- The boost finds the subject if all pseudo-elements at the end are of the first kind. The
compound of the boost is never before the subject, since all it passes introduce elements. -/
theorem subjectIndex_eq_iff (selector : Selector) :
    selector.subjectIndex Combinator.isPseudoElement =
        selector.subjectIndex Combinator.introducesElement ↔
      ∀ joint ∈ selector.trailing Combinator.introducesElement, joint.isPseudoElement = true := by
  constructor
  · intro same joint mem
    cases passed : joint.isPseudoElement with
    | true => rfl
    | false =>
      have behind :=
        Selector.subjectIndex_lt introducesElement_of_isPseudoElement mem passed
      omega
  · exact Selector.subjectIndex_congr introducesElement_of_isPseudoElement

/-- Where the boost looks behind the subject, at compounds without classes, nothing is boosted.
There is no class to repeat there, and the boost does not look further back. -/
theorem rewrite_eq_none_of_behind (positive : 0 < boost.times)
    (behind : selector.subjectIndex Combinator.introducesElement <
      selector.subjectIndex Combinator.isPseudoElement)
    (classless : ∀ compound ∈
        selector.compounds.drop (selector.subjectIndex Combinator.introducesElement + 1),
      ∀ name, .class name ∉ compound) : boost.rewrite selector = none := by
  rw [← Option.not_isSome_iff_eq_none, isSome_rewrite_iff positive]
  rintro ⟨name, mem, -⟩
  rw [Selector.subject] at mem
  cases found : selector.compounds[selector.subjectIndex Combinator.isPseudoElement]? with
  | none =>
    rw [found] at mem
    cases mem
  | some compound =>
    rw [found] at mem
    refine classless compound ?_ name mem
    refine List.mem_of_getElem? (i := selector.subjectIndex Combinator.isPseudoElement -
      (selector.subjectIndex Combinator.introducesElement + 1)) ?_
    rw [List.getElem?_drop, ← found]
    congr 1
    omega

/-- **Which compound a boost reaches.** A selector is boosted exactly if the compound that
pseudo-elements of the first kind at its end hang off, or the last one, has an accepted class; the
last such class is repeated in that compound, and the others stay. That compound is the subject
exactly if all pseudo-elements at the end are of the first kind. Otherwise it stands behind the
subject, and if no class stands there the selector is left alone, whatever its subject has. -/
theorem rewrite_subject (positive : 0 < boost.times) (selector : Selector) :
    ((boost.rewrite selector).isSome = true ↔
      ∃ name, .class name ∈ selector.subject Combinator.isPseudoElement ∧
        boost.accepts name = true) ∧
    (∀ boosted, boost.rewrite selector = some boosted →
      boosted.combinators = selector.combinators ∧
      ∃ before name after,
        boost.Divides (selector.subject Combinator.isPseudoElement) before name after ∧
        boosted.compounds =
          selector.compounds.set (selector.subjectIndex Combinator.isPseudoElement)
            (before ++ .class name :: List.replicate boost.times (.class name) ++ after)) ∧
    (selector.subjectIndex Combinator.isPseudoElement =
        selector.subjectIndex Combinator.introducesElement ↔
      ∀ joint ∈ selector.trailing Combinator.introducesElement, joint.isPseudoElement = true) ∧
    (∀ joint ∈ selector.trailing Combinator.introducesElement, joint.isPseudoElement = false →
      selector.subjectIndex Combinator.introducesElement <
        selector.subjectIndex Combinator.isPseudoElement ∧
      ((∀ compound ∈
          selector.compounds.drop (selector.subjectIndex Combinator.introducesElement + 1),
        ∀ name, .class name ∉ compound) → boost.rewrite selector = none)) := by
  refine ⟨isSome_rewrite_iff positive selector, fun _ => compounds_of_rewrite,
    subjectIndex_eq_iff selector, fun joint mem kept => ?_⟩
  have behind := Selector.subjectIndex_lt introducesElement_of_isPseudoElement mem kept
  exact ⟨behind, rewrite_eq_none_of_behind positive behind⟩

/-- The compound before `::before` is boosted. -/
theorem rewrite_subject_title :
    ∃ boosted, Boost.rewrite { times := 2 } titleSelector = some boosted ∧
      boosted.combinators = [.descendant, .pseudoElement] ∧
      titleSelector.subjectIndex Combinator.isPseudoElement = 1 := by
  have positive : 0 < Boost.times { times := 2 } := by decide
  obtain ⟨iff, change, same, -⟩ := rewrite_subject positive titleSelector
  obtain ⟨boosted, rewritten⟩ := Option.isSome_iff_exists.mp
    (iff.mpr ⟨"active", .tail _ (.head _), rfl⟩)
  exact ⟨boosted, rewritten, (change boosted rewritten).1, same.mpr (by decide)⟩

/-- `.card::part(title)`, in matching order. -/
def partSelector : Selector :=
  .mk [.part ["title"], .combinator .part, .class "card"] { hasPart := true }

/-- What `::part(…)` hangs off is not boosted, though it has a class that is accepted. -/
theorem rewrite_part :
    ¬ ((Boost.rewrite { times := 1 } partSelector).isSome = true ↔
      ∃ name, .class name ∈ partSelector.subject Combinator.introducesElement ∧
        Boost.accepts { times := 1 } name = true) := by
  intro iff
  have changed := iff.mpr ⟨"card", .head _, rfl⟩
  cases changed

end StyleGraph.Stable.Boost
