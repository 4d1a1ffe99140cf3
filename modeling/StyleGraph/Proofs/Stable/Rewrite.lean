import StyleGraph.Proofs.Css.Selector.Matching
import StyleGraph.Proofs.Css.Selector.Same
import StyleGraph.Stable.Transform

/-!
# The form of a stable variant

A stable variant has the components of its selector, one by one with stable classes in them: the
same combinators at the same places, and `:scope` where the selector has it. Where nothing changes,
the variant is the selector itself, so whether something has changed need not be known to tell what
the components of the variant are (`components_rewriteSelector`).

A list of selectors gets the variants of those that change, unless it has them
(`mem_apply_ofScheme`).
-/

set_option autoImplicit false

namespace StyleGraph.Stable

open Css

namespace Scheme

variable {scheme : Scheme}

/-- Components are rewritten one by one. -/
theorem rewriteComponents_fst (components : List Component) :
    (scheme.rewriteComponents components).1 =
      components.map fun component => (scheme.rewriteComponent component).1 := by
  induction components with
  | nil => rfl
  | cons component rest ih => simp only [rewriteComponents, ih, List.map_cons]

mutual

/-- A component that has not changed is what it was. The flag is kept apart from the result so that
nothing needs to be compared, and this says that it can be trusted. -/
theorem rewriteComponent_of_unchanged : ∀ {component : Component},
    (scheme.rewriteComponent component).2 = false →
      (scheme.rewriteComponent component).1 = component
  | .class name => by
    intro same
    unfold rewriteComponent at same ⊢
    split at same
    · cases same
    · rfl
  | .list kind selectors => by
    intro same
    simp only [rewriteComponent] at same ⊢
    rw [rewriteList_of_unchanged same]
  | .wrap .slotted inner => by
    intro same
    simp only [rewriteComponent] at same ⊢
    rw [rewriteSelector_of_unchanged same]
  | .wrap .host inner => by
    intro same
    simp only [rewriteComponent] at same ⊢
    rw [rewriteSelector_of_unchanged same]
  | .wrap .global _ | .wrap .local _ | .wrap (.element _) _ | .combinator _ | .universal
  | .ofNamespace _ | .type _ | .id _ | .attrExists _ _ | .attr _ _ _ _ _ | .nth _ | .nthOf _ _
  | .root | .empty | .scope | .host | .part _ | .nesting | .pseudoClass _ | .pseudoElement _ => by
    intro _
    simp only [rewriteComponent]

/-- A selector that has not changed is what it was. -/
theorem rewriteSelector_of_unchanged : ∀ {selector : Selector},
    (scheme.rewriteSelector selector).2 = false →
      (scheme.rewriteSelector selector).1 = selector
  | .mk components flags => by
    intro same
    simp only [rewriteSelector] at same ⊢
    rw [same]
    rfl

/-- Components none of which has changed are what they were. -/
theorem rewriteComponents_of_unchanged : ∀ {components : List Component},
    (scheme.rewriteComponents components).2 = false →
      (scheme.rewriteComponents components).1 = components
  | [] => fun _ => by rw [rewriteComponents]
  | component :: rest => by
    intro same
    simp only [rewriteComponents, Bool.or_eq_false_iff] at same ⊢
    rw [rewriteComponent_of_unchanged same.1, rewriteComponents_of_unchanged same.2]

/-- Selectors none of which has changed are what they were. -/
theorem rewriteList_of_unchanged : ∀ {selectors : List Selector},
    (scheme.rewriteList selectors).2 = false → (scheme.rewriteList selectors).1 = selectors
  | [] => fun _ => by rw [rewriteList]
  | selector :: rest => by
    intro same
    simp only [rewriteList, Bool.or_eq_false_iff] at same ⊢
    rw [rewriteSelector_of_unchanged same.1, rewriteList_of_unchanged same.2]

end

/-- **The components of a variant are those of the selector, with stable classes in them.** -/
theorem components_rewriteSelector (selector : Selector) :
    (scheme.rewriteSelector selector).1.components =
      selector.components.map fun component => (scheme.rewriteComponent component).1 := by
  obtain ⟨components, flags⟩ := selector
  rw [Selector.components, ← rewriteComponents_fst]
  cases changed : (scheme.rewriteComponents components).2 with
  | true => simp only [rewriteSelector, changed, if_true, Selector.components]
  | false =>
    rw [rewriteComponents_of_unchanged changed]
    simp only [rewriteSelector, changed, Bool.false_eq_true, if_false, Selector.components]

/-- Combinators stay where they are. -/
theorem combinator?_rewriteComponent (component : Component) :
    (scheme.rewriteComponent component).1.combinator? = component.combinator? := by
  unfold rewriteComponent
  split
  · split
    · unfold Scheme.component
      split <;> rfl
    · rfl
  all_goals rfl

/-- Rewriting neither makes nor removes a `:scope`. -/
theorem isScope_rewriteComponent (component : Component) :
    (scheme.rewriteComponent component).1.isScope = component.isScope := by
  unfold rewriteComponent
  split
  · split
    · unfold Scheme.component
      split <;> rfl
    · rfl
  all_goals rfl

/-- A variant says where `:scope` is just when its selector does. -/
theorem isAnchored_rewriteSelector (selector : Selector) :
    (scheme.rewriteSelector selector).1.isAnchored = selector.isAnchored := by
  unfold Selector.isAnchored
  rw [components_rewriteSelector, List.any_map]
  exact congrArg (List.any selector.components) (funext isScope_rewriteComponent)

end Scheme

/-! ## Selector lists -/

/-- Inserting adds the selector, if it was not there. -/
theorem Transform.mem_insert {selectors : List Selector} {selector other : Selector} :
    other ∈ Transform.insert selectors selector ↔ other ∈ selectors ∨ other = selector := by
  unfold Transform.insert
  split
  next known =>
    obtain ⟨present, mem, same⟩ := List.any_eq_true.mp known
    rw [Selector.eq_of_same same] at mem
    exact ⟨.inl, fun h => h.elim id fun equal => equal ▸ mem⟩
  next => simp

/-- A selector that a list has is not added to it. -/
theorem Transform.insert_of_mem {selectors : List Selector} {selector : Selector}
    (mem : selector ∈ selectors) : Transform.insert selectors selector = selectors := by
  have known : (selectors.any fun other => other.same selector) = true :=
    List.any_eq_true.mpr ⟨selector, mem, Selector.same_iff.mpr rfl⟩
  rw [Transform.insert, if_pos known]

/-- Inserting what is there changes nothing. -/
theorem Transform.foldl_insert_of_subset {selectors more : List Selector}
    (subset : more ⊆ selectors) : more.foldl Transform.insert selectors = selectors := by
  induction more with
  | nil => rfl
  | cons selector more ih =>
    obtain ⟨mem, subset⟩ := List.cons_subset.mp subset
    rw [List.foldl_cons, insert_of_mem mem, ih subset]

/-- Inserting several adds them all. -/
theorem Transform.mem_foldl_insert {selectors more : List Selector} {other : Selector} :
    other ∈ more.foldl Transform.insert selectors ↔ other ∈ selectors ∨ other ∈ more := by
  induction more generalizing selectors with
  | nil => simp
  | cons selector more ih => rw [List.foldl_cons, ih, mem_insert, List.mem_cons, or_assoc]

/-- The variants that a list gets. -/
theorem mem_filterMap_ofScheme {scheme : Scheme} {selectors : List Selector} {other : Selector} :
    other ∈ selectors.filterMap (Transform.ofScheme scheme).rewrite ↔ ∃ selector ∈ selectors,
      (scheme.rewriteSelector selector).2 = true ∧
        (scheme.rewriteSelector selector).1 = other := by
  rw [List.mem_filterMap]
  simp only [Transform.ofScheme, Option.ite_none_right_eq_some, Option.some.injEq]

/-- A list with stable variants holds its selectors and the variants of those that change. -/
theorem mem_apply_ofScheme {scheme : Scheme} {selectors : List Selector} {other : Selector} :
    other ∈ Pipeline.apply [Transform.ofScheme scheme] selectors ↔
      other ∈ selectors ∨ ∃ selector ∈ selectors,
        (scheme.rewriteSelector selector).2 = true ∧
          (scheme.rewriteSelector selector).1 = other := by
  have applied : Pipeline.apply [Transform.ofScheme scheme] selectors =
      (selectors.filterMap (Transform.ofScheme scheme).rewrite).foldl Transform.insert
        selectors := rfl
  rw [applied, Transform.mem_foldl_insert, mem_filterMap_ofScheme]

/-- A list that has the variants of its selectors gets no others. -/
theorem apply_ofScheme_of_closed {scheme : Scheme} {selectors : List Selector}
    (closed : ∀ selector ∈ selectors, (scheme.rewriteSelector selector).2 = true →
      (scheme.rewriteSelector selector).1 ∈ selectors) :
    Pipeline.apply [Transform.ofScheme scheme] selectors = selectors := by
  refine Transform.foldl_insert_of_subset fun other mem => ?_
  obtain ⟨selector, listed, changed, rfl⟩ := mem_filterMap_ofScheme.mp mem
  exact closed selector listed changed

end StyleGraph.Stable
