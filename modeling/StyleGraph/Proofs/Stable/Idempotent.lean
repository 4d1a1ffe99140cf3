import StyleGraph.Proofs.Css.Rule
import StyleGraph.Proofs.Stable.Replacement
import StyleGraph.Proofs.Stable.Token

/-!
# Adding stable variants twice

The variant of a variant is the variant itself (`Scheme.rewriteSelector_rewriteSelector`): a stable
class is not accepted again, or is its own stable class, and inside `:global(…)` nothing changes.
So a list that has the variants of its selectors also has the variants of these, and a second run
adds nothing to any rule of a sheet (`run_ofScheme_run`).
-/

set_option autoImplicit false

namespace StyleGraph.Stable

open Css

namespace Scheme

variable {scheme : Scheme}

/-- The stable component of a class stays as it is. It is wrapped, and no wrapped class is looked
at, or its class is stable already. -/
theorem rewriteComponent_component (tidy : Text.trimmed scheme.space = scheme.space)
    (name : String) :
    (scheme.rewriteComponent (scheme.component (className name scheme.space))).1 =
      scheme.component (className name scheme.space) := by
  cases wraps : scheme.wrapsGlobal with
  | true => simp only [component, wraps, if_true, rewriteComponent]
  | false =>
    have plain : scheme.component (className name scheme.space) =
        .class (className name scheme.space) := by
      simp only [component, wraps, Bool.false_eq_true, if_false]
    rw [plain, rewriteComponent_class]
    split
    next accepted => rw [className_className_of_accepts tidy accepted, plain]
    next => rfl

mutual

/-- Stable classes in a component stay as they are. Components that hold no class are not changed at
all, and the others by their parts. -/
theorem rewriteComponent_rewriteComponent (tidy : Text.trimmed scheme.space = scheme.space) :
    ∀ component : Component,
    (scheme.rewriteComponent (scheme.rewriteComponent component).1).1 =
      (scheme.rewriteComponent component).1
  | .class name => by
    rw [rewriteComponent_class]
    split
    next => exact rewriteComponent_component tidy name
    next refused => rw [rewriteComponent_class, if_neg refused]
  | .list kind selectors => by
    simp only [rewriteComponent, rewriteList_rewriteList tidy selectors]
  | .wrap .slotted inner => by
    simp only [rewriteComponent, rewriteSelector_rewriteSelector tidy inner]
  | .wrap .host inner => by
    simp only [rewriteComponent, rewriteSelector_rewriteSelector tidy inner]
  | .wrap .global _ | .wrap .local _ | .wrap (.element _) _ | .combinator _ | .universal
  | .ofNamespace _ | .type _ | .id _ | .attrExists _ _ | .attr _ _ _ _ _ | .nth _ | .nthOf _ _
  | .root | .empty | .scope | .host | .part _ | .nesting | .pseudoClass _ | .pseudoElement _ => by
    simp only [rewriteComponent]

/-- **The variant of a variant is the variant itself.** -/
theorem rewriteSelector_rewriteSelector (tidy : Text.trimmed scheme.space = scheme.space) :
    ∀ selector : Selector,
    (scheme.rewriteSelector (scheme.rewriteSelector selector).1).1 =
      (scheme.rewriteSelector selector).1
  | .mk components flags => by
    cases changed : (scheme.rewriteComponents components).2 with
    | true =>
      -- What is known of a selector is forgotten in its variant, so it cannot differ.
      simp only [rewriteSelector, changed, if_true,
        rewriteComponents_rewriteComponents tidy components, ite_self]
    | false =>
      have same : (scheme.rewriteSelector (.mk components flags)).1 = .mk components flags := by
        simp only [rewriteSelector, changed, Bool.false_eq_true, if_false]
      rw [same, same]

/-- Components that were rewritten are left alone by a second rewriting, as stable names are not
taken again. -/
theorem rewriteComponents_rewriteComponents (tidy : Text.trimmed scheme.space = scheme.space) :
    ∀ components : List Component,
    (scheme.rewriteComponents (scheme.rewriteComponents components).1).1 =
      (scheme.rewriteComponents components).1
  | [] => by simp only [rewriteComponents]
  | component :: rest => by
    simp only [rewriteComponents, rewriteComponent_rewriteComponent tidy component,
      rewriteComponents_rewriteComponents tidy rest]

/-- The same for the selectors of a nested list. -/
theorem rewriteList_rewriteList (tidy : Text.trimmed scheme.space = scheme.space) :
    ∀ selectors : List Selector,
    (scheme.rewriteList (scheme.rewriteList selectors).1).1 = (scheme.rewriteList selectors).1
  | [] => by simp only [rewriteList]
  | selector :: rest => by
    simp only [rewriteList, rewriteSelector_rewriteSelector tidy selector,
      rewriteList_rewriteList tidy rest]

end

/-- A list gets no variants when it has got them. -/
theorem apply_apply (tidy : Text.trimmed scheme.space = scheme.space)
    (selectors : List Selector) :
    Pipeline.apply [Transform.ofScheme scheme]
        (Pipeline.apply [Transform.ofScheme scheme] selectors) =
      Pipeline.apply [Transform.ofScheme scheme] selectors := by
  refine apply_ofScheme_of_closed fun selector mem changed => ?_
  rcases mem_apply_ofScheme.mp mem with listed | ⟨before, listed, differs, rfl⟩
  · exact mem_apply_ofScheme.mpr (.inr ⟨selector, listed, changed, rfl⟩)
  · rw [rewriteSelector_rewriteSelector tidy]
    exact mem_apply_ofScheme.mpr (.inr ⟨before, listed, differs, rfl⟩)

end Scheme

/-! ## The theorem -/

/-- **Adding stable variants to a sheet twice is adding them once**, whatever the namespace and the
filters, and whether stable classes stand inside `:global(…)` or not. -/
theorem run_ofScheme_run (space : String) (included excluded : Option Pattern) (wrapsGlobal : Bool)
    (sheet : Sheet) :
    let scheme : Scheme := { Scheme.ofSpace space with included, excluded, wrapsGlobal }
    let pipeline : Pipeline := [Transform.ofScheme scheme]
    pipeline.run (pipeline.run sheet) = pipeline.run sheet := by
  intro scheme pipeline
  have tidy : Text.trimmed scheme.space = scheme.space := Text.trimmed_trimmed space
  have again := funext (Scheme.apply_apply tidy)
  rw [Pipeline.run, Pipeline.run, Sheet.mapSelectors_mapSelectors]
  exact congrArg (sheet.mapSelectors ·) again

end StyleGraph.Stable
