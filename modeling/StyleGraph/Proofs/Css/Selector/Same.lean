import StyleGraph.Css.Selector.Basic

/-!
# Selectors that are the same

`Selector.same` compares selectors part by part. Two selectors are the same just when they are equal
(`Selector.same_iff`), so what a list holds up to `same` it holds.
-/

set_option autoImplicit false

namespace StyleGraph.Css

/-- What is the same is equal, for components, selectors and lists of them. The four go through one
mutual induction, as they call each other. -/
private theorem eq_of_same_all :
    (∀ a b, Component.same a b = true → a = b) ∧ (∀ a b, Selector.same a b = true → a = b) ∧
      (∀ as bs, Component.sameAll as bs = true → as = bs) ∧
      ∀ as bs, Selector.sameAll as bs = true → as = bs := by
  apply Component.same.mutual_induct
    (fun a b => Component.same a b = true → a = b)
    (fun a b => Selector.same a b = true → a = b)
    (fun as bs => Component.sameAll as bs = true → as = bs)
    (fun as bs => Selector.sameAll as bs = true → as = bs)
  case case21 =>
    -- Components of two different kinds are not the same.
    intros
    rename_i same
    rw [Component.same] at same
    all_goals first
      | assumption
      | cases same
  all_goals
    intros
    simp_all [Component.same, Selector.same, Component.sameAll, Selector.sameAll]

/-- The comparison that runs answers true for equal selectors only. -/
theorem Selector.eq_of_same {a b : Selector} (same : Selector.same a b = true) : a = b :=
  eq_of_same_all.2.1 a b same

/-- The same for lists of selectors. -/
theorem Selector.eq_of_sameAll {as bs : List Selector} (same : Selector.sameAll as bs = true) :
    as = bs :=
  eq_of_same_all.2.2.2 as bs same

mutual

/-- Each thing is the same as itself, along the recursion of the comparison. -/
private theorem Component.same_self : ∀ component : Component, Component.same component component
  | .list kind selectors => by simp [Component.same, Selector.sameAll_self selectors]
  | .wrap kind inner => by simp [Component.same, Selector.same_self inner]
  | .nthOf position selectors => by simp [Component.same, Selector.sameAll_self selectors]
  | .combinator _ | .universal | .ofNamespace _ | .type _ | .id _ | .class _ | .attrExists _ _
  | .attr _ _ _ _ _ | .nth _ | .root | .empty | .scope | .host | .part _ | .nesting
  | .pseudoClass _ | .pseudoElement _ => by simp [Component.same]

/-- The step for a selector. -/
private theorem Selector.same_self : ∀ selector : Selector, Selector.same selector selector
  | .mk components _ => by simp [Selector.same, Component.sameAll_self components]

/-- The step for the components of a selector. -/
private theorem Component.sameAll_self : ∀ components : List Component,
    Component.sameAll components components
  | [] => by rw [Component.sameAll]
  | component :: rest => by
    simp [Component.sameAll, Component.same_self component, Component.sameAll_self rest]

/-- The step for the selectors of a list. -/
private theorem Selector.sameAll_self : ∀ selectors : List Selector,
    Selector.sameAll selectors selectors
  | [] => by rw [Selector.sameAll]
  | selector :: rest => by
    simp [Selector.sameAll, Selector.same_self selector, Selector.sameAll_self rest]

end

/-- The comparison decides equality, so that proofs need not open it. -/
theorem Selector.same_iff {a b : Selector} : Selector.same a b = true ↔ a = b :=
  ⟨Selector.eq_of_same, fun equal => equal ▸ Selector.same_self a⟩

end StyleGraph.Css
