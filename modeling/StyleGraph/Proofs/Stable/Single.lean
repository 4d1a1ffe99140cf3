import StyleGraph.Proofs.Stable.Boosted
import StyleGraph.Proofs.Stable.Rewrite

/-!
# Single classes among rewritten selectors

A rule may compose classes only if its selectors are single classes. Where names are local no
stable variant is one, since a stable class stands inside `:global(…)`; and no boosted selector is
one, since it has a class at least twice. So of the selectors of a rule those stay single classes
that are not boosted (`exists_single_apply`).
-/

set_option autoImplicit false

namespace StyleGraph.Css.Selector

/-- A selector of several components is no single class. -/
theorem singleClass?_eq_none_of_length {selector : Selector}
    (long : 2 ≤ selector.components.length) : selector.singleClass? = none := by
  unfold singleClass?
  split
  next component single =>
    rw [single] at long
    simp at long
  next => rfl

/-- A single class is all the selector consists of. -/
theorem components_of_singleClass? {selector : Selector} {name : String}
    (single : selector.singleClass? = some name) : selector.components = [.class name] := by
  unfold singleClass? at single
  split at single
  next component only =>
    cases component <;> cases single
    exact only
  next => cases single

end StyleGraph.Css.Selector

namespace StyleGraph.Stable

open Css

/-! ## Stable variants -/

namespace Scheme

variable {scheme : Scheme}

/-- Where names are local, no stable variant is a single class. A stable class is wrapped there, so
that it stays global, and a wrapped class is no class component any more. -/
theorem singleClass?_rewriteSelector (wraps : scheme.wrapsGlobal = true) {selector : Selector}
    (changed : (scheme.rewriteSelector selector).2 = true) :
    (scheme.rewriteSelector selector).1.singleClass? = none := by
  cases single : (scheme.rewriteSelector selector).1.singleClass? with
  | none => rfl
  | some name =>
    obtain ⟨components, flags⟩ := selector
    have written := Selector.components_of_singleClass? single
    rw [components_rewriteSelector] at written
    obtain ⟨component, only, same⟩ := List.map_eq_singleton_iff.mp written
    -- A component that is a class in the variant was that class before, so nothing has changed.
    have kept : (scheme.rewriteComponent component).2 = false := by
      unfold rewriteComponent at same ⊢
      split at same
      next =>
        split at same
        · rw [Scheme.component, if_pos wraps] at same
          cases same
        · rfl
      all_goals cases same
      rfl
    have components : components = [component] := only
    simp only [rewriteSelector, components, rewriteComponents, kept, Bool.or_self] at changed
    cases changed

/-- The class of a selector that is one gets a stable variant if the scheme accepts it. -/
theorem rewriteSelector_single {selector : Selector} {name : String}
    (single : selector.singleClass? = some name) :
    (scheme.rewriteSelector selector).2 = scheme.accepts name := by
  obtain ⟨components, flags⟩ := selector
  have components : components = [.class name] := Selector.components_of_singleClass? single
  subst components
  simp only [rewriteSelector, rewriteComponents, rewriteComponent, stableFor?, Bool.or_false]
  cases scheme.accepts name <;> rfl

end Scheme

/-! ## Boosted selectors -/

namespace Boost

variable {boost : Boost}

/-- No boosted selector is a single class. -/
theorem singleClass?_of_rewrite {selector boosted : Selector}
    (rewritten : boost.rewrite selector = some boosted) : boosted.singleClass? = none := by
  have positive := times_pos_of_rewrite rewritten
  obtain ⟨before, name, after, -, components⟩ := exists_components_of_rewrite rewritten
  apply Selector.singleClass?_eq_none_of_length
  rw [components]
  simp only [List.length_append, List.length_cons, List.length_replicate]
  omega

/-- A single class is boosted if it is accepted. The class is the whole subject, with nothing before
or behind it. -/
theorem rewrite_single {selector : Selector} {name : String}
    (single : selector.singleClass? = some name) :
    boost.rewrite selector = none ↔ boost.times = 0 ∨ boost.accepts name = false := by
  have components := Selector.components_of_singleClass? single
  have unbroken : ∀ component ∈ [Component.class name], component.isCombinator = false := by
    simp [Component.isCombinator, Component.combinator?]
  have written : selector.written = [] ++ [.class name] ++ [] := by
    rw [Selector.written, components]
    exact Selector.turn_of_unbroken unbroken
  have isSubject : Selector.IsSubject Combinator.isPseudoElement [] [.class name] [] :=
    ⟨.inl rfl, unbroken, .inl rfl, fun _ mem => by cases mem⟩
  by_cases idle : boost.times = 0
  · simp [rewrite, idle]
  · rw [← Option.not_isSome_iff_eq_none, isSome_rewrite_iff (Nat.pos_of_ne_zero idle),
      isSubject.subject_eq written]
    simp [idle]

end Boost

/-! ## Selector lists -/

variable {selectors : List Selector}

/-- The boost alone rewrites each selector in its place. -/
theorem apply_ofBoost (boost : Boost) (selectors : List Selector) :
    Pipeline.apply [Transform.ofBoost boost] selectors =
      selectors.map fun selector => (boost.rewrite selector).getD selector := rfl

/-- The single classes of a boosted list are those that are not boosted. -/
theorem exists_single_ofBoost (boost : Boost) :
    (∃ selector ∈ Pipeline.apply [Transform.ofBoost boost] selectors,
        selector.singleClass?.isSome = true) ↔
      ∃ selector ∈ selectors, selector.singleClass?.isSome = true ∧
        boost.rewrite selector = none := by
  simp only [apply_ofBoost, List.mem_map, exists_exists_and_eq_and]
  refine exists_congr fun selector => and_congr_right fun _ => ?_
  cases rewritten : boost.rewrite selector with
  | none => simp
  | some boosted => simp [Boost.singleClass?_of_rewrite rewritten]

/-- Where names are local, a list with stable variants has no more single classes. -/
theorem exists_single_ofScheme {scheme : Scheme} (wraps : scheme.wrapsGlobal = true) :
    (∃ selector ∈ Pipeline.apply [Transform.ofScheme scheme] selectors,
        selector.singleClass?.isSome = true) ↔
      ∃ selector ∈ selectors, selector.singleClass?.isSome = true := by
  constructor
  · rintro ⟨selector, mem, single⟩
    rcases mem_apply_ofScheme.mp mem with mem | ⟨before, _, changed, rfl⟩
    · exact ⟨selector, mem, single⟩
    · rw [Scheme.singleClass?_rewriteSelector wraps changed] at single
      cases single
  · rintro ⟨selector, mem, single⟩
    exact ⟨selector, mem_apply_ofScheme.mpr (.inl mem), single⟩

end StyleGraph.Stable
