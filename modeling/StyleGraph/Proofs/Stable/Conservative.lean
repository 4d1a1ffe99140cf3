import StyleGraph.Proofs.Css.Selector.Matching
import StyleGraph.Proofs.Stable.Effect
import StyleGraph.Proofs.Stable.Rewrite
import StyleGraph.Proofs.Stable.Token

/-!
# Stable variants where no element has a stable class

A document that knows nothing of stable classes should look the same with stable variants in its
sheets and without them. What variants match there is described by their effects
(`Scheme.describes_effectOf`): by induction over the selector, one way to put parts together at a
time.

## What is proved

`anyMatches_stable_iff`: a list with stable variants matches what it matched without them, and
beyond that only what variants match of selectors that negate a class that gets a stable variant.
Of these all are harmless whose form narrows: those where such classes stand inside an even number
of `:not(…)`, and those where one of them has to match as well, as in `.a:not(.b)`. What is left
is `:not(.a)` and its like (`anyMatches_stable_notCard`).
-/

set_option autoImplicit false

namespace StyleGraph.Stable

open Css

variable {Node : Type} {document : Document Node}

/-! ## Matching before and after -/

namespace Scheme

variable {scheme : Scheme}

/-- Stable classes are written plainly, and no element has one. -/
structure AbsentFrom (scheme : Scheme) (document : Document Node) : Prop where
  plain : scheme.wrapsGlobal = false
  gone : ∀ node name, ¬ document.HasClass node (className name scheme.space)

mutual

/-- The effect of a component describes what it matches. The proof follows the recursion of the
matching. Where a list is negated the effects change sides, which is the one way a variant can match
more. -/
theorem describes_effect (absent : scheme.AbsentFrom document) (context : Context Node)
    (node : Node) : ∀ component : Component,
      (scheme.effect component).Describes (component.Matches document context node)
        ((scheme.rewriteComponent component).1.Matches document context node)
  | .class name => by
    unfold effect rewriteComponent stableFor?
    split
    · simp only [Scheme.component, absent.plain, Bool.false_eq_true, if_false, Component.Matches]
      exact Effect.describes_lost (absent.gone node name)
    · exact Effect.describes_unchanged _
  | .list .negation selectors => by
    simp only [effect, rewriteComponent, Component.Matches]
    exact (describes_effectOfAny absent context node selectors).negate
  | .list .has selectors => by
    simp only [effect, rewriteComponent, Component.Matches]
    exact describes_effectOfSome absent _ node selectors
  | .list .is selectors | .list .where_ selectors | .list (.any _) selectors => by
    simp only [effect, rewriteComponent, Component.Matches]
    exact describes_effectOfAny absent context node selectors
  | .wrap .slotted inner => by
    simp only [effect, rewriteComponent, Component.Matches]
    exact describes_effectUpTo absent context (fun _ => Effect.describes_always) node inner
  | .wrap .host inner => by
    simp only [effect, rewriteComponent, Component.Matches]
    exact (describes_effectUpTo absent context
      (fun _ => Effect.describes_always) node inner).under _
  | .wrap .global _ | .wrap .local _ | .wrap (.element _) _ | .combinator _ | .universal
  | .ofNamespace _ | .type _ | .id _ | .attrExists _ _ | .attr _ _ _ _ _ | .nth _ | .nthOf _ _
  | .root | .empty | .scope | .host | .part _ | .nesting | .pseudoClass _ | .pseudoElement _ => by
    simp only [effect, rewriteComponent]
    exact Effect.describes_unchanged _

/-- The effect of a selector describes what it matches. -/
theorem describes_effectUpTo (absent : scheme.AbsentFrom document) (context : Context Node)
    {first : Effect} {First : Node → Prop}
    (described : ∀ node, first.Describes (First node) (First node)) (node : Node) :
    ∀ selector : Selector, (scheme.effectUpTo first selector).Describes
      (selector.MatchesUpTo document context First node)
      ((scheme.rewriteSelector selector).1.MatchesUpTo document context First node)
  | .mk components flags => by
    rw [effectUpTo, Selector.matchesUpTo_eq, Selector.matchesUpTo_eq, components_rewriteSelector,
      Selector.components, ← rewriteComponents_fst]
    exact describes_effectOfAll absent context described node components

/-- The effect of components that all have to match describes what they match. By recursion on the
components: a combinator leads on to other nodes, and other components ask the same node. -/
theorem describes_effectOfAll (absent : scheme.AbsentFrom document) (context : Context Node)
    {first : Effect} {First : Node → Prop}
    (described : ∀ node, first.Describes (First node) (First node)) (node : Node) :
    ∀ components : List Component, (scheme.effectOfAll first components).Describes
      (Component.AllMatch document context First components node)
      (Component.AllMatch document context First (scheme.rewriteComponents components).1 node)
  | [] => by
    simp only [effectOfAll, rewriteComponents, Component.AllMatch]
    exact described node
  | component :: rest => by
    simp only [effectOfAll, rewriteComponents, Component.AllMatch, combinator?_rewriteComponent]
    cases component.combinator? with
    | some joint =>
      have reached : (scheme.effectOfAll first rest).somewhere.somewhere.Describes _ _ :=
        Effect.describes_exists fun next =>
          (describes_effectOfAll absent context described next rest).under
            (document.Leads joint node next)
      exact reached
    | none =>
      exact (describes_effect absent context node component).both
        (describes_effectOfAll absent context described node rest)

/-- The effect of a list of selectors describes what it matches. One of them is enough, so effects
are put together by alternatives. -/
theorem describes_effectOfAny (absent : scheme.AbsentFrom document) (context : Context Node)
    (node : Node) : ∀ selectors : List Selector,
      (scheme.effectOfAny selectors).Describes
        (Selector.AnyMatches document context selectors node)
        (Selector.AnyMatches document context (scheme.rewriteList selectors).1 node)
  | [] => by
    simp only [effectOfAny, rewriteList, Selector.AnyMatches]
    exact Effect.describes_never
  | selector :: rest => by
    simp only [effectOfAny, rewriteList, Selector.AnyMatches]
    exact (describes_effectUpTo absent context
      (fun _ => Effect.describes_always) node selector).either
      (describes_effectOfAny absent context node rest)

/-- The effect of a list of relative selectors describes what it matches. They are matched below an
anchor, so a node is looked for first. -/
theorem describes_effectOfSome (absent : scheme.AbsentFrom document) (context : Context Node)
    (anchor : Node) : ∀ selectors : List Selector,
      (scheme.effectOfSome selectors).Describes
        (Selector.AnyBelow document context anchor selectors)
        (Selector.AnyBelow document context anchor (scheme.rewriteList selectors).1)
  | [] => by
    simp only [effectOfSome, rewriteList, Selector.AnyBelow]
    exact Effect.describes_never
  | selector :: rest => by
    simp only [effectOfSome, rewriteList, Selector.AnyBelow, isAnchored_rewriteSelector]
    exact (Effect.describes_exists fun node => describes_effectUpTo absent context
      (fun _ => Effect.describes_unchanged _) node selector).either
      (describes_effectOfSome absent context anchor rest)

end

/-- The effect of a selector of a rule describes what its variant matches. -/
theorem describes_effectOf (absent : scheme.AbsentFrom document) (context : Context Node)
    (selector : Selector) (node : Node) :
    (scheme.effectOf selector).Describes (selector.Matches document context node)
      ((scheme.rewriteSelector selector).1.Matches document context node) :=
  describes_effectUpTo absent context (fun _ => Effect.describes_always) node selector

end Scheme

/-! ## The theorem -/

/-- **Stable variants lose nothing, and add something only where a class is negated.** In a document
without stable classes a list with stable variants matches what it matched without them, and what
variants of selectors match that negate a class and do not narrow all the same. So without such
selectors it matches the same. -/
theorem anyMatches_stable_iff (space : String) (included excluded : Option Pattern)
    (nonblank : Text.trimmed space ≠ "") (document : Document Node)
    (fresh : ∀ node name, document.HasClass node name →
      ¬ (Text.trimmed space ++ "-").toList <+: name.toList)
    (context : Context Node) (selectors : List Selector) (node : Node) :
    let scheme : Scheme := { Scheme.ofSpace space with included, excluded }
    let after := Pipeline.apply [Transform.ofScheme scheme] selectors
    (Selector.AnyMatches document context after node ↔
      Selector.AnyMatches document context selectors node ∨
        ∃ selector ∈ selectors, scheme.negatesIn selector = true ∧
          (scheme.effectOf selector).narrows = false ∧
          (scheme.rewriteSelector selector).1.Matches document context node) ∧
    ((∀ selector ∈ selectors, scheme.negatesIn selector = true →
        (scheme.effectOf selector).narrows = true) →
      (Selector.AnyMatches document context after node ↔
        Selector.AnyMatches document context selectors node)) := by
  intro scheme after
  have absent : scheme.AbsentFrom document :=
    ⟨rfl, fun node name classed => fresh node _ classed (prefix_className nonblank name)⟩
  have describes := fun selector => Scheme.describes_effectOf absent context selector node
  have general : Selector.AnyMatches document context after node ↔
      Selector.AnyMatches document context selectors node ∨
        ∃ selector ∈ selectors, scheme.negatesIn selector = true ∧
          (scheme.effectOf selector).narrows = false ∧
          (scheme.rewriteSelector selector).1.Matches document context node := by
    simp only [Selector.anyMatches_iff]
    constructor
    · -- what matches is an original, or a variant; one that narrows stands for its original
      rintro ⟨other, mem, found⟩
      rcases mem_apply_ofScheme.mp mem with before | ⟨selector, listed, _, rfl⟩
      · exact .inl ⟨other, before, found⟩
      cases narrows : (scheme.effectOf selector).narrows with
      | true => exact .inl ⟨selector, listed, (describes selector).narrows narrows found⟩
      | false =>
        refine .inr ⟨selector, listed, ?_, narrows, found⟩
        by_contra none
        have kept : (scheme.effectOf selector).narrows = true :=
          Scheme.narrows_effectUpTo rfl (eq_false_of_ne_true none)
        rw [narrows] at kept
        cases kept
    · -- every original is still there, and every variant is, unless it is its original
      rintro (⟨selector, listed, found⟩ | ⟨selector, listed, _, _, found⟩)
      · exact ⟨selector, mem_apply_ofScheme.mpr (.inl listed), found⟩
      · cases changed : (scheme.rewriteSelector selector).2 with
        | true =>
          exact ⟨_, mem_apply_ofScheme.mpr (.inr ⟨selector, listed, changed, rfl⟩), found⟩
        | false =>
          rw [Scheme.rewriteSelector_of_unchanged changed] at found
          exact ⟨selector, mem_apply_ofScheme.mpr (.inl listed), found⟩
  refine ⟨general, fun narrow => ?_⟩
  rw [general]
  refine or_iff_left ?_
  rintro ⟨selector, listed, negated, wide, _⟩
  rw [narrow selector listed negated] at wide
  cases wide

/-- A title inside a card. -/
def cardPage : Document (Fin 2) where
  parent? node := if node = 1 then some 0 else none
  previous? _ := none
  origin? _ := none
  slot? _ := none
  partHost? _ := none
  HasClass node name := (node, name) ∈ [((0 : Fin 2), "card"), (1, "title")]
  IsHost _ := False
  IsAt _ _ _ := False
  Satisfies _ _ := False

/-- The title of a card that is not active. -/
def idleTitle : Selector :=
  .mk [.class "title", .combinator .child, .class "card",
    .list .negation [.mk [.class "active"] {}]] {}

/-- What a card is not. -/
def notCard : Selector := .mk [.list .negation [.mk [.class "card"] {}]] {}

/-- No element of the page has a class that begins like a stable one, as the statement asks. -/
private theorem fresh_cardPage : ∀ node name, cardPage.HasClass node name →
    ¬ (Text.trimmed " knighted " ++ "-").toList <+: name.toList := by
  intro node name classed
  simp only [cardPage, List.mem_cons, Prod.mk.injEq, List.not_mem_nil, or_false] at classed
  rcases classed with ⟨_, rfl⟩ | ⟨_, rfl⟩ <;> decide +kernel

/-- The statement at a list whose only negation is one that stable names leave alone. -/
theorem anyMatches_stable_iff_idleTitle :
    Text.trimmed " knighted " ≠ "" ∧
      (∀ node name, cardPage.HasClass node name →
        ¬ (Text.trimmed " knighted " ++ "-").toList <+: name.toList) ∧
      (∀ selector ∈ [idleTitle], (Scheme.ofSpace " knighted ").negatesIn selector = true →
        ((Scheme.ofSpace " knighted ").effectOf selector).narrows = true) ∧
      ∀ context node,
        Selector.AnyMatches cardPage context
            (Pipeline.apply [Transform.ofScheme (.ofSpace " knighted ")] [idleTitle]) node ↔
          Selector.AnyMatches cardPage context [idleTitle] node := by
  have nonblank : Text.trimmed " knighted " ≠ "" := by decide +kernel
  have narrow : ∀ selector ∈ [idleTitle],
      (Scheme.ofSpace " knighted ").negatesIn selector = true →
        ((Scheme.ofSpace " knighted ").effectOf selector).narrows = true := by
    simp only [List.mem_singleton, forall_eq]
    decide +kernel
  exact ⟨nonblank, fresh_cardPage, narrow, fun context node =>
    (anyMatches_stable_iff " knighted " none none nonblank cardPage fresh_cardPage context
      [idleTitle] node).2 narrow⟩

/-- **A negated class gets a variant that matches more**: the card itself. No element has the stable
class, so its negation holds everywhere, for the card as well. -/
theorem anyMatches_stable_notCard :
    (∀ node name, cardPage.HasClass node name →
      ¬ (Text.trimmed " knighted " ++ "-").toList <+: name.toList) ∧
      ∀ context,
        ¬ Selector.AnyMatches cardPage context [notCard] 0 ∧
          Selector.AnyMatches cardPage context
            (Pipeline.apply [Transform.ofScheme (.ofSpace " knighted ")] [notCard]) 0 := by
  refine ⟨fresh_cardPage, fun context => ⟨?_, ?_⟩⟩
  · simp [notCard, cardPage, Selector.AnyMatches, Selector.MatchesUpTo, Component.AllMatch,
      Component.Matches, Component.combinator?]
  · have nonblank : Text.trimmed " knighted " ≠ "" := by decide +kernel
    have absent : (Scheme.ofSpace " knighted ").AbsentFrom cardPage :=
      ⟨rfl, fun node name classed =>
        fresh_cardPage node _ classed (prefix_className nonblank name)⟩
    have describes := Scheme.describes_effectOf absent context notCard 0
    have changed : ((Scheme.ofSpace " knighted ").rewriteSelector notCard).2 = true := by
      decide +kernel
    have fills : ((Scheme.ofSpace " knighted ").effectOf notCard).fills = true := by
      decide +kernel
    exact Selector.anyMatches_iff.mpr ⟨_,
      mem_apply_ofScheme.mpr (.inr ⟨notCard, List.mem_singleton_self _, changed, rfl⟩),
      describes.fills fills⟩

end StyleGraph.Stable
