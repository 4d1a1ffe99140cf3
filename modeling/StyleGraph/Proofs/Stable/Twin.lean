import Mathlib.Data.Set.Operations
import StyleGraph.Proofs.Css.Selector.Matching
import StyleGraph.Proofs.Css.Selector.Written
import StyleGraph.Proofs.Stable.Conservative
import StyleGraph.Proofs.Stable.Replacement
import StyleGraph.Proofs.Stable.Token

/-!
# A stable variant as a twin

When every class of a document gets its stable name, variants match there what their selectors
matched before: by induction over the selectors inside a selector, each component matches the node
that it matched, and combinators lead to the same nodes (`matches_twin_iff`). Classes that get one
name could not be told apart any more, so the names of all classes that occur have to differ; and
the classes of the selector have to be at places where variants are made.

A twin has the compounds and combinators of its selector, and weighs the same.
-/

set_option autoImplicit false

namespace StyleGraph.Stable

open Css

variable {Node : Type} {document twin : Document Node} {scheme : Scheme}

/-! ## Weight -/

namespace Scheme

mutual

/-- A class is replaced by a class, and a list by a list of the same weight, so nothing weighs more
than before. -/
theorem specificity_rewriteComponent (nesting : Specificity) : ∀ component : Component,
    (scheme.rewriteComponent component).1.specificity nesting = component.specificity nesting
  | .class name => by
    rw [rewriteComponent_class]
    split
    · unfold Scheme.component
      split <;> simp only [Component.specificity]
    · rfl
  | .list .negation selectors | .list .is selectors | .list .has selectors
  | .list (.any _) selectors => by
    simp only [rewriteComponent, Component.specificity, heaviest_rewriteList nesting selectors]
  | .list .where_ _ => by simp only [rewriteComponent, Component.specificity]
  | .wrap .slotted inner | .wrap .host inner => by
    simp only [rewriteComponent, Component.specificity, specificity_rewriteSelector nesting inner]
  | .wrap .global _ | .wrap .local _ | .wrap (.element _) _ | .combinator _ | .universal
  | .ofNamespace _ | .type _ | .id _ | .attrExists _ _ | .attr _ _ _ _ _ | .nth _ | .nthOf _ _
  | .root | .empty | .scope | .host | .part _ | .nesting | .pseudoClass _ | .pseudoElement _ => by
    simp only [rewriteComponent]

/-- **A variant weighs what its selector weighs.** -/
theorem specificity_rewriteSelector (nesting : Specificity) : ∀ selector : Selector,
    (scheme.rewriteSelector selector).1.specificity nesting = selector.specificity nesting
  | .mk components _ => by
    simp only [rewriteSelector]
    split
    · simp only [Selector.specificity, totalSpecificity_rewriteComponents nesting components]
    · rfl

/-- The same for the components of a selector, added up. -/
theorem totalSpecificity_rewriteComponents (nesting : Specificity) :
    ∀ components : List Component,
      Component.totalSpecificity nesting (scheme.rewriteComponents components).1 =
        Component.totalSpecificity nesting components
  | [] => by simp only [rewriteComponents]
  | component :: rest => by
    simp only [rewriteComponents, Component.totalSpecificity,
      specificity_rewriteComponent nesting component,
      totalSpecificity_rewriteComponents nesting rest]

/-- The same for the heaviest selector of a list. -/
theorem heaviest_rewriteList (nesting : Specificity) : ∀ selectors : List Selector,
    Selector.heaviest nesting (scheme.rewriteList selectors).1 =
      Selector.heaviest nesting selectors
  | [] => by simp only [rewriteList]
  | selector :: rest => by
    simp only [rewriteList, Selector.heaviest, specificity_rewriteSelector nesting selector,
      heaviest_rewriteList nesting rest]

end

/-! ## Matching -/

/-- Stable names are told apart in a twin of a document. -/
structure Twins (scheme : Scheme) (document twin : Document Node) : Prop where
  renames : document.Renames (className · scheme.space) twin
  /-- What stands inside `:global(…)` is a class like any other. -/
  global : scheme.wrapsGlobal = true → ∀ name node,
    twin.Satisfies (.wrap .global (.ofWritten [.class name])) node ↔ twin.HasClass node name

/-- A variant matches in a twin what its selector matches in the document. -/
def Agrees (scheme : Scheme) (document twin : Document Node) (selector : Selector) : Prop :=
  ∀ (context : Context Node) (First : Node → Prop) (node : Node),
    (scheme.rewriteSelector selector).1.MatchesUpTo twin context First node ↔
      selector.MatchesUpTo document context First node

/-- A class is accepted, and no other class of the document has its stable name. -/
structure Distinct (scheme : Scheme) (document : Document Node) (name : String) : Prop where
  accepted : scheme.accepts name = true
  apart : ∀ node before, document.HasClass node before →
    className before scheme.space = className name scheme.space → before = name

/-- The variant of a class is in the twin where the class is in the document. The namespace is the
only thing between the two. -/
theorem matches_component_iff (twins : scheme.Twins document twin) {name : String}
    (distinct : scheme.Distinct document name) (context : Context Node) (node : Node) :
    (scheme.component (className name scheme.space)).Matches twin context node ↔
      document.HasClass node name := by
  rw [← twins.renames.hasClass_rename_iff distinct.apart node]
  unfold Scheme.component
  split
  next wraps =>
    simp only [Component.Matches]
    exact twins.global wraps _ node
  next => simp only [Component.Matches]

/-- The same for a list of selectors, if it holds of each of them. -/
theorem anyMatches_rewriteList {selectors : List Selector}
    (agree : ∀ selector ∈ selectors, scheme.Agrees document twin selector)
    (context : Context Node) (node : Node) :
    Selector.AnyMatches twin context (scheme.rewriteList selectors).1 node ↔
      Selector.AnyMatches document context selectors node := by
  simp only [Selector.anyMatches_iff, rewriteList_fst, List.mem_map, exists_exists_and_eq_and]
  exact exists_congr fun selector => and_congr_right fun mem =>
    agree selector mem context (fun _ => True) node

/-- The same for selectors that are matched somewhere below a node. -/
theorem anyBelow_rewriteList (twins : scheme.Twins document twin) {selectors : List Selector}
    (agree : ∀ selector ∈ selectors, scheme.Agrees document twin selector)
    (context : Context Node) (anchor : Node) :
    Selector.AnyBelow twin context anchor (scheme.rewriteList selectors).1 ↔
      Selector.AnyBelow document context anchor selectors := by
  simp only [Selector.anyBelow_iff, rewriteList_fst, List.mem_map, exists_exists_and_eq_and,
    isAnchored_rewriteSelector, twins.renames.leads]
  exact exists_congr fun selector => and_congr_right fun mem => exists_congr fun node =>
    agree selector mem context _ node

/-- A selector without a class matches the same in both documents, as it is its own variant. -/
theorem matchesUpTo_of_no_class {selector : Selector} (agree : scheme.Agrees document twin selector)
    (none : ∀ name, ¬ selector.HasClass name) (context : Context Node) (First : Node → Prop)
    (node : Node) : selector.MatchesUpTo twin context First node ↔
      selector.MatchesUpTo document context First node := by
  have unchanged : (scheme.rewriteSelector selector).2 = false := by
    rw [← Bool.not_eq_true, changed_iff_exists_at?]
    rintro ⟨way, index, name, there, _⟩
    exact none name ⟨way, index, Selector.at?_of_entered there⟩
  have agrees := agree context First node
  rwa [rewriteSelector_of_unchanged unchanged] at agrees

/-- A component of a variant matches in a twin what the component matches in the document. Selectors
inside the component agree by hypothesis, so only the kinds of components have to be gone through.
-/
theorem matches_rewriteComponent (twins : scheme.Twins document twin) {component : Component}
    (distinct : ∀ name, component = .class name → scheme.Distinct document name)
    (agree : ∀ inner ∈ component.inside, scheme.Agrees document twin inner)
    (closed : isEntered component = false →
      ∀ inner ∈ component.inside, ∀ name, ¬ inner.HasClass name)
    (context : Context Node) (node : Node) :
    (scheme.rewriteComponent component).1.Matches twin context node ↔
      component.Matches document context node := by
  cases component with
  | «class» name =>
    have here := distinct name rfl
    rw [rewriteComponent_class, if_pos here.accepted, matches_component_iff twins here]
    simp only [Component.Matches]
  | list kind selectors =>
    cases kind with
    | negation =>
      simp only [rewriteComponent, Component.Matches]
      exact not_congr (anyMatches_rewriteList agree context node)
    | has =>
      simp only [rewriteComponent, Component.Matches]
      exact anyBelow_rewriteList twins agree _ node
    | is | where_ | any vendor =>
      simp only [rewriteComponent, Component.Matches]
      exact anyMatches_rewriteList agree context node
  | wrap kind inner =>
    have inside := agree inner (List.mem_singleton_self inner)
    cases kind with
    | slotted =>
      simp only [rewriteComponent, Component.Matches]
      exact inside context _ node
    | host =>
      simp only [rewriteComponent, Component.Matches, twins.renames.isHost]
      exact and_congr_right fun _ => inside context _ node
    | global | «local» | element name =>
      simp only [rewriteComponent, Component.Matches]
      exact twins.renames.satisfies _ (closed rfl) node
  | nthOf position selectors =>
    -- No variants are made inside, so these selectors have no class at all.
    have same : Selector.AnyMatches twin context selectors =
        Selector.AnyMatches document context selectors := by
      funext node
      simp only [Selector.anyMatches_iff]
      refine propext (exists_congr fun selector => and_congr_right fun mem => ?_)
      exact matchesUpTo_of_no_class (agree selector mem) (closed rfl selector mem) context _ node
    simp only [rewriteComponent, Component.Matches, same, twins.renames.isAt]
  | nth position => simp only [rewriteComponent, Component.Matches, twins.renames.isAt]
  | scope | nesting => simp only [rewriteComponent, Component.Matches]
  | _ =>
    simp only [rewriteComponent, Component.Matches]
    exact twins.renames.satisfies _ (closed rfl) node

/-- **Variants agree with their selectors in a twin.** The induction is on the selectors inside of
selectors; a list that is not entered must hold no class, or its classes would keep their names. -/
theorem agrees_of_classesEntered (twins : scheme.Twins document twin) (selector : Selector)
    (entered : selector.ClassesEntered isEntered)
    (distinct : ∀ name, selector.HasClass name → scheme.Distinct document name) :
    scheme.Agrees document twin selector := by
  induction selector using Selector.inside_induction with
  | step selector ih =>
    intro context First
    have each : ∀ component ∈ selector.components, ∀ node,
        (scheme.rewriteComponent component).1.Matches twin context node ↔
          component.Matches document context node := by
      intro component listed node
      -- a list that is not entered holds no class, so nothing in it would change
      have inside : ∀ inner ∈ component.inside, inner.ClassesEntered isEntered := by
        intro inner mem
        cases enter : isEntered component with
        | true => exact entered.of_inside listed mem enter
        | false =>
          intro way index name there
          exact absurd ⟨way, index, there⟩ (entered.not_hasClass listed mem enter name)
      refine matches_rewriteComponent twins ?_ ?_ ?_ context node
      · rintro name rfl
        exact distinct name (Selector.hasClass_of_mem listed)
      · exact fun inner mem => ih component listed inner mem (inside inner mem) fun name classed =>
          distinct name (classed.of_inside listed mem)
      · exact fun closed inner mem => entered.not_hasClass listed mem closed
    intro node
    rw [Selector.matchesUpTo_eq, Selector.matchesUpTo_eq, components_rewriteSelector]
    exact twins.renames.allMatch_map combinator?_rewriteComponent First each node

end Scheme

/-! ## The theorem -/

/-- **A variant is its selector's twin.** Under any namespace and without filters, a variant matches
in a document whose classes have their stable names what its selector matches in the document
itself, as long as the classes of the selector and the document get different names, none of the
selector's belongs to the namespace, and all of them are at places where variants are made. Whatever
the classes, the variant is what rebuilding the selector from its written components gives: the same
combinators, the same compounds with each component rewritten where it stands, the same weight. -/
theorem matches_twin_iff (space : String) (wrapsGlobal : Bool) (document twin : Document Node)
    (renames : document.Renames (className · space) twin)
    (global : wrapsGlobal = true → ∀ name node,
      twin.Satisfies (.wrap .global (.ofWritten [.class name])) node ↔ twin.HasClass node name)
    (selector : Selector) (entered : selector.ClassesEntered isEntered)
    (foreign : ∀ name, selector.HasClass name →
      ¬ (Text.trimmed space ++ "-").toList <+: name.toList)
    (injective : Set.InjOn (className · space)
      {name | selector.HasClass name ∨ ∃ node, document.HasClass node name})
    (context : Context Node) (node : Node) (nesting : Specificity) :
    let scheme : Scheme := { Scheme.ofSpace space with wrapsGlobal }
    let rewrite (component : Component) := (scheme.rewriteComponent component).1
    let variant := (scheme.rewriteSelector selector).1
    (variant.Matches twin context node ↔ selector.Matches document context node) ∧
      variant.components = (Selector.ofWritten (selector.written.map rewrite)).components ∧
      variant.combinators = selector.combinators ∧
      variant.compounds = selector.compounds.map (List.map rewrite) ∧
      variant.specificity nesting = selector.specificity nesting := by
  intro scheme rewrite variant
  have named : (className · scheme.space) = (className · space) :=
    funext fun name => className_trimmed name space
  have twins : scheme.Twins document twin := ⟨by rwa [named], global⟩
  -- a class of the selector is not stable yet, and no other class has its stable name
  have distinct : ∀ name, selector.HasClass name → scheme.Distinct document name := by
    intro name classed
    refine ⟨?_, fun other before has same => ?_⟩
    · have outside : name.startsWith (scheme.space ++ "-") = false := by
        rw [← Bool.not_eq_true, String.startsWith_string_iff]
        exact foreign name classed
      simp [Scheme.accepts, outside, show scheme.included = none from rfl,
        show scheme.excluded = none from rfl]
    · simp only [scheme, Scheme.ofSpace, className_trimmed] at same
      exact injective (.inr ⟨other, has⟩) (.inl classed) same
  have keeps : ∀ component, (rewrite component).combinator? = component.combinator? :=
    Scheme.combinator?_rewriteComponent
  have changed : variant.components = selector.components.map rewrite :=
    Scheme.components_rewriteSelector selector
  exact ⟨Scheme.agrees_of_classesEntered twins selector entered distinct context _ node,
    (Selector.components_ofWritten_map keeps changed).symm,
    Selector.combinators_of_components keeps changed,
    Selector.compounds_of_components keeps changed,
    Scheme.specificity_rewriteSelector nesting selector⟩

/-- The card with its title once more, under stable names, where `:global(…)` asks for the class
inside it. -/
def stableCardPage : Document (Fin 2) :=
  let HasClass (node : Fin 2) (name : String) : Prop :=
    (node.val, name) ∈ [(0, "knighted-card"), (1, "knighted-title")]
  { cardPage with
    HasClass
    Satisfies := fun component node =>
      ∃ name, component = .wrap .global (.ofWritten [.class name]) ∧ HasClass node name }

/-- The twin has the same nodes, with every class replaced. Each node keeps its parent and its
place, so the two pages differ in their classes only. -/
private theorem renames_stableCardPage :
    cardPage.Renames (className · " knighted ") stableCardPage where
  parent? := rfl
  previous? := rfl
  origin? := rfl
  slot? := rfl
  partHost? := rfl
  isHost := rfl
  isAt := rfl
  hasClass := by
    have card : className "card" " knighted " = "knighted-card" := by decide +kernel
    have title : className "title" " knighted " = "knighted-title" := by decide +kernel
    intro node name
    simp only [stableCardPage, cardPage, List.mem_cons, Prod.mk.injEq, List.not_mem_nil, or_false,
      Fin.ext_iff]
    constructor
    · rintro (⟨first, rfl⟩ | ⟨second, rfl⟩)
      · exact ⟨"card", .inl ⟨first, rfl⟩, card⟩
      · exact ⟨"title", .inr ⟨second, rfl⟩, title⟩
    · rintro ⟨_, ⟨first, rfl⟩ | ⟨second, rfl⟩, rfl⟩
      · exact .inl ⟨first, card⟩
      · exact .inr ⟨second, title⟩
  satisfies := by
    intro component classless node
    simp only [cardPage, iff_false]
    rintro ⟨name, rfl, _⟩
    exact classless _ (List.mem_singleton_self _) name
      (Selector.hasClass_of_mem (List.mem_singleton_self _))

/-- The classes of the selector stand where rewriting enters. -/
private theorem entered_idleTitle : idleTitle.ClassesEntered isEntered := by
  refine Selector.classesEntered_of_forall fun component listed inner mem => ?_
  simp only [idleTitle, Selector.components, List.mem_cons, List.not_mem_nil, or_false] at listed
  rcases listed with rfl | rfl | rfl | rfl
  · cases mem
  · cases mem
  · cases mem
  · rw [List.mem_singleton.mp mem]
    refine ⟨rfl, Selector.classesEntered_of_forall fun other listed deeper mem => ?_⟩
    rw [List.mem_singleton.mp listed] at mem
    cases mem

/-- These are its classes. -/
private theorem class_idleTitle {name : String} (classed : idleTitle.HasClass name) :
    name ∈ ["title", "card", "active"] := by
  have negated : (Selector.mk [.class "active"] {}).HasClass name → name = "active" := by
    rw [Selector.hasClass_iff]
    simp [Selector.components, Component.inside]
  rw [Selector.hasClass_iff] at classed
  simp only [idleTitle, Selector.components, List.mem_cons, List.not_mem_nil, or_false,
    exists_eq_or_imp, exists_eq_left, Component.inside, reduceCtorEq, false_and, exists_false,
    false_or, Component.class.injEq] at classed
  rcases classed with (rfl | rfl) | classed
  · decide
  · decide
  · rw [negated classed]
    decide

/-- A selector with a combinator, a class inside of a pseudo-class, and a pseudo-class of its own.
-/
theorem matches_twin_iff_idleTitle :
    cardPage.Renames (className · " knighted ") stableCardPage ∧
      (true = true → ∀ name node,
        stableCardPage.Satisfies (.wrap .global (.ofWritten [.class name])) node ↔
          stableCardPage.HasClass node name) ∧
      idleTitle.ClassesEntered isEntered ∧
      (∀ name, idleTitle.HasClass name →
        ¬ (Text.trimmed " knighted " ++ "-").toList <+: name.toList) ∧
      Set.InjOn (className · " knighted ")
        {name | idleTitle.HasClass name ∨ ∃ node, cardPage.HasClass node name} ∧
      ∀ context node,
        ((({ Scheme.ofSpace " knighted " with wrapsGlobal := true } : Scheme).rewriteSelector
            idleTitle).1.Matches stableCardPage context node ↔
          idleTitle.Matches cardPage context node) := by
  have global : true = true → ∀ name node,
      stableCardPage.Satisfies (.wrap .global (.ofWritten [.class name])) node ↔
        stableCardPage.HasClass node name := by
    intro _ name node
    constructor
    · rintro ⟨other, same, classed⟩
      cases same
      exact classed
    · exact fun classed => ⟨name, rfl, classed⟩
  have foreign : ∀ name, idleTitle.HasClass name →
      ¬ (Text.trimmed " knighted " ++ "-").toList <+: name.toList := by
    have checked : ∀ name ∈ ["title", "card", "active"],
        ¬ (Text.trimmed " knighted " ++ "-").toList <+: name.toList := by decide +kernel
    exact fun name classed => checked name (class_idleTitle classed)
  have injective : Set.InjOn (className · " knighted ")
      {name | idleTitle.HasClass name ∨ ∃ node, cardPage.HasClass node name} := by
    have among : ∀ name, (idleTitle.HasClass name ∨ ∃ node, cardPage.HasClass node name) →
        name ∈ ["title", "card", "active"] := by
      rintro name (classed | ⟨node, classed⟩)
      · exact class_idleTitle classed
      · simp only [cardPage, List.mem_cons, Prod.mk.injEq, List.not_mem_nil, or_false] at classed
        rcases classed with ⟨_, rfl⟩ | ⟨_, rfl⟩ <;> decide
    have checked : ∀ one ∈ ["title", "card", "active"], ∀ other ∈ ["title", "card", "active"],
        className one " knighted " = className other " knighted " → one = other := by
      decide +kernel
    exact fun one oneIn other otherIn same =>
      checked one (among one oneIn) other (among other otherIn) same
  exact ⟨renames_stableCardPage, global, entered_idleTitle, foreign, injective,
    fun context node => (matches_twin_iff " knighted " true cardPage stableCardPage
      renames_stableCardPage global idleTitle entered_idleTitle foreign injective context node
      {}).1⟩

end StyleGraph.Stable
