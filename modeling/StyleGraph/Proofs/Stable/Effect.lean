import StyleGraph.Stable.Auto

/-!
# What stable classes do to a selector

Where no element has a stable class, a stable class matches nothing. So whatever has one in place
of a class matches less, inside `:not(…)` more, and inside another `:not(…)` less again. An
`Effect` is what the form of a component or a selector tells of this, and `Effect.Describes` is
what it claims about matching before and after.

The effect of a whole is computed from the effects of its parts (`Scheme.effect`), one lemma for
each way to put parts together. Without a class inside `:not(…)` that gets a stable variant, a
selector narrows (`Scheme.narrows_effectUpTo`).
-/

set_option autoImplicit false

namespace StyleGraph.Stable

open Css

/-- What putting stable classes in does to what is matched. -/
structure Effect where
  /-- Nothing is matched any more. -/
  vanishes : Bool
  /-- Everything is matched. -/
  fills : Bool
  /-- Nothing is matched that was not matched before. -/
  narrows : Bool
  /-- All that was matched before is matched. -/
  widens : Bool
  deriving DecidableEq, Repr, Inhabited

namespace Effect

/-- What has no class that gets a stable variant. -/
def unchanged : Effect := ⟨false, false, true, true⟩

/-- A class that gets a stable variant. -/
def lost : Effect := ⟨true, false, true, false⟩

/-- What matches nothing at all. -/
def never : Effect := ⟨true, false, true, true⟩

/-- What matches everything. -/
def always : Effect := ⟨false, true, true, true⟩

/-- The opposite is matched. -/
def negate (effect : Effect) : Effect :=
  ⟨effect.fills, effect.vanishes, effect.widens, effect.narrows⟩

/-- Both are matched. -/
def both (first second : Effect) : Effect where
  vanishes := first.vanishes || second.vanishes
  fills := first.fills && second.fills
  narrows := first.vanishes || second.vanishes || (first.narrows && second.narrows)
  widens := (first.fills && second.fills) || (first.widens && second.widens)

/-- One of them is matched. -/
def either (first second : Effect) : Effect := (both first.negate second.negate).negate

/-- Some node that a condition holds for is matched. -/
def somewhere (effect : Effect) : Effect := { effect with fills := false }

/-- What an effect claims. -/
structure Describes (effect : Effect) (Before After : Prop) : Prop where
  vanishes : effect.vanishes = true → ¬ After
  fills : effect.fills = true → After
  narrows : effect.narrows = true → After → Before
  widens : effect.widens = true → Before → After

variable {effect first second : Effect} {Before After Before' After' : Prop}

/-- What holds before just as after is described by no change. -/
theorem describes_unchanged (Same : Prop) : unchanged.Describes Same Same where
  vanishes := nofun
  fills := nofun
  narrows := fun _ => id
  widens := fun _ => id

/-- What never holds after is described as lost. -/
theorem describes_lost (gone : ¬ After) : lost.Describes Before After where
  vanishes := fun _ => gone
  fills := nofun
  narrows := fun _ after => absurd after gone
  widens := nofun

/-- What never holds is described as such. -/
theorem describes_never : never.Describes False False where
  vanishes := fun _ => id
  fills := nofun
  narrows := fun _ => id
  widens := fun _ => id

/-- What always holds is described as such. -/
theorem describes_always : always.Describes True True where
  vanishes := nofun
  fills := fun _ => trivial
  narrows := fun _ => id
  widens := fun _ => id

/-- Under a negation what vanishes is filled, and what is filled vanishes. -/
theorem Describes.negate (describes : effect.Describes Before After) :
    effect.negate.Describes (¬ Before) (¬ After) where
  vanishes := fun fills not => not (describes.fills fills)
  fills := describes.vanishes
  narrows := fun widens not before => not (describes.widens widens before)
  widens := fun narrows not after => not (describes.narrows narrows after)

/-- Two conditions that are asked for together. One that vanishes takes the other with it. An effect
is a rough answer: it tells which of the two conditions can hold without the other, for whatever
node. -/
theorem Describes.both (describes : first.Describes Before After)
    (others : second.Describes Before' After') :
    (first.both second).Describes (Before ∧ Before') (After ∧ After') where
  vanishes := by
    rintro vanishes ⟨after, after'⟩
    rcases Bool.or_eq_true_iff.mp vanishes with gone | gone
    · exact describes.vanishes gone after
    · exact others.vanishes gone after'
  fills := by
    intro fills
    obtain ⟨full, full'⟩ := Bool.and_eq_true_iff.mp fills
    exact ⟨describes.fills full, others.fills full'⟩
  narrows := by
    rintro narrows ⟨after, after'⟩
    rcases Bool.or_eq_true_iff.mp narrows with vanishes | narrows
    · rcases Bool.or_eq_true_iff.mp vanishes with gone | gone
      · exact absurd after (describes.vanishes gone)
      · exact absurd after' (others.vanishes gone)
    · obtain ⟨less, less'⟩ := Bool.and_eq_true_iff.mp narrows
      exact ⟨describes.narrows less after, others.narrows less' after'⟩
  widens := by
    rintro widens ⟨before, before'⟩
    rcases Bool.or_eq_true_iff.mp widens with fills | widens
    · obtain ⟨full, full'⟩ := Bool.and_eq_true_iff.mp fills
      exact ⟨describes.fills full, others.fills full'⟩
    · obtain ⟨more, more'⟩ := Bool.and_eq_true_iff.mp widens
      exact ⟨describes.widens more before, others.widens more' before'⟩

/-- One of two conditions. It takes both to vanish for the whole to vanish. -/
theorem Describes.either (describes : first.Describes Before After)
    (others : second.Describes Before' After') :
    (first.either second).Describes (Before ∨ Before') (After ∨ After') := by
  have dual := (describes.negate.both others.negate).negate
  simpa only [Effect.either, ← not_or, Classical.not_not] using dual

/-- Under a condition that does not change. -/
theorem Describes.under (describes : effect.Describes Before After) (Condition : Prop) :
    effect.somewhere.Describes (Condition ∧ Before) (Condition ∧ After) where
  vanishes := fun vanishes after => describes.vanishes vanishes after.2
  fills := nofun
  narrows := fun narrows after => ⟨after.1, describes.narrows narrows after.2⟩
  widens := fun widens before => ⟨before.1, describes.widens widens before.2⟩

/-- Where each node is described in one way, so is their being one. -/
theorem describes_exists {Node : Type} {Before After : Node → Prop}
    (describes : ∀ node, effect.Describes (Before node) (After node)) :
    effect.somewhere.Describes (∃ node, Before node) (∃ node, After node) where
  vanishes := fun vanishes ⟨node, after⟩ => (describes node).vanishes vanishes after
  fills := nofun
  narrows := fun narrows ⟨node, after⟩ => ⟨node, (describes node).narrows narrows after⟩
  widens := fun widens ⟨node, before⟩ => ⟨node, (describes node).widens widens before⟩

/-- What is matched stays the same. -/
structure Keeps (effect : Effect) : Prop where
  narrows : effect.narrows = true
  widens : effect.widens = true

/-- No change keeps what holds. -/
theorem keeps_unchanged : unchanged.Keeps := ⟨rfl, rfl⟩

/-- What never holds is kept. -/
theorem keeps_never : never.Keeps := ⟨rfl, rfl⟩

/-- What always holds is kept. -/
theorem keeps_always : always.Keeps := ⟨rfl, rfl⟩

/-- A negation swaps the two directions, and both are kept. -/
theorem Keeps.negate (keeps : effect.Keeps) : effect.negate.Keeps := ⟨keeps.widens, keeps.narrows⟩

/-- A search among nodes keeps what the test at each node keeps. -/
theorem Keeps.somewhere (keeps : effect.Keeps) : effect.somewhere.Keeps :=
  ⟨keeps.narrows, keeps.widens⟩

/-- Two conditions that only ever become harder do so together. -/
theorem narrows_both (narrows : first.narrows = true) (others : second.narrows = true) :
    (first.both second).narrows = true := by
  simp [both, narrows, others]

/-- One of two conditions that only ever become harder does so as well. -/
theorem narrows_either (narrows : first.narrows = true) (others : second.narrows = true) :
    (first.either second).narrows = true := by
  simp [either, both, negate, narrows, others]

/-- Conditions that are kept are kept together. -/
theorem Keeps.both (keeps : first.Keeps) (others : second.Keeps) : (first.both second).Keeps where
  narrows := narrows_both keeps.narrows others.narrows
  widens := by simp [Effect.both, keeps.widens, others.widens]

/-- One of two conditions that are kept is kept. -/
theorem Keeps.either (keeps : first.Keeps) (others : second.Keeps) :
    (first.either second).Keeps :=
  (keeps.negate.both others.negate).negate

end Effect

namespace Scheme

mutual

/-- What stable classes do to a component. -/
def effect (scheme : Scheme) : Component → Effect
  | .class name => if scheme.accepts name then .lost else .unchanged
  | .list kind selectors =>
    match kind with
    | .negation => (scheme.effectOfAny selectors).negate
    | .has => scheme.effectOfSome selectors
    | _ => scheme.effectOfAny selectors
  | .wrap .slotted inner => scheme.effectUpTo .always inner
  | .wrap .host inner => (scheme.effectUpTo .always inner).somewhere
  | _ => .unchanged

/-- What stable classes do to a selector; `first` is what becomes of the condition on the node of
its first compound. -/
def effectUpTo (scheme : Scheme) (first : Effect) : Selector → Effect
  | .mk components _ => scheme.effectOfAll first components

/-- What stable classes do to components that all have to match. -/
def effectOfAll (scheme : Scheme) (first : Effect) : List Component → Effect
  | [] => first
  | component :: rest =>
    match component.combinator? with
    | some _ => (scheme.effectOfAll first rest).somewhere
    | none => (scheme.effect component).both (scheme.effectOfAll first rest)

/-- What stable classes do to a list of selectors. -/
def effectOfAny (scheme : Scheme) : List Selector → Effect
  | [] => .never
  | selector :: rest => (scheme.effectUpTo .always selector).either (scheme.effectOfAny rest)

/-- What stable classes do to a list of selectors that are matched relative to a node. -/
def effectOfSome (scheme : Scheme) : List Selector → Effect
  | [] => .never
  | selector :: rest =>
    (scheme.effectUpTo .unchanged selector).somewhere.either (scheme.effectOfSome rest)

end

/-- What stable classes do to a selector of a rule. -/
def effectOf (scheme : Scheme) (selector : Selector) : Effect := scheme.effectUpTo .always selector

variable {scheme : Scheme}

mutual

/-- A component that has not changed matches what it matched. The recursion is that of the
rewriting: where nothing below changed, nothing above could. -/
theorem keeps_effect : ∀ {component : Component},
    (scheme.rewriteComponent component).2 = false → (scheme.effect component).Keeps
  | .class name => by
    intro same
    unfold rewriteComponent stableFor? at same
    unfold effect
    cases accepted : scheme.accepts name with
    | true => simp [accepted] at same
    | false => exact Effect.keeps_unchanged
  | .list .negation selectors => by
    intro same
    simp only [rewriteComponent] at same
    exact (keeps_effectOfAny same).negate
  | .list .has selectors => by
    intro same
    simp only [rewriteComponent] at same
    exact keeps_effectOfSome same
  | .list .is selectors | .list .where_ selectors | .list (.any _) selectors => by
    intro same
    simp only [rewriteComponent] at same
    exact keeps_effectOfAny same
  | .wrap .slotted inner => by
    intro same
    simp only [rewriteComponent] at same
    exact keeps_effectUpTo Effect.keeps_always same
  | .wrap .host inner => by
    intro same
    simp only [rewriteComponent] at same
    exact (keeps_effectUpTo Effect.keeps_always same).somewhere
  | .wrap .global _ | .wrap .local _ | .wrap (.element _) _ | .combinator _ | .universal
  | .ofNamespace _ | .type _ | .id _ | .attrExists _ _ | .attr _ _ _ _ _ | .nth _ | .nthOf _ _
  | .root | .empty | .scope | .host | .part _ | .nesting | .pseudoClass _ | .pseudoElement _ =>
    fun _ => Effect.keeps_unchanged

/-- A selector that has not changed matches what it matched. -/
theorem keeps_effectUpTo {first : Effect} (keeps : first.Keeps) : ∀ {selector : Selector},
    (scheme.rewriteSelector selector).2 = false → (scheme.effectUpTo first selector).Keeps
  | .mk components _ => by
    intro same
    simp only [rewriteSelector] at same
    exact keeps_effectOfAll keeps same

/-- Components that have not changed match what they matched. -/
theorem keeps_effectOfAll {first : Effect} (keeps : first.Keeps) : ∀ {components : List Component},
    (scheme.rewriteComponents components).2 = false → (scheme.effectOfAll first components).Keeps
  | [] => fun _ => by
    rw [effectOfAll]
    exact keeps
  | component :: rest => by
    intro same
    simp only [rewriteComponents, Bool.or_eq_false_iff] at same
    rw [effectOfAll]
    split
    · exact (keeps_effectOfAll keeps same.2).somewhere
    · exact (keeps_effect same.1).both (keeps_effectOfAll keeps same.2)

/-- Selectors that have not changed match what they matched. -/
theorem keeps_effectOfAny : ∀ {selectors : List Selector},
    (scheme.rewriteList selectors).2 = false → (scheme.effectOfAny selectors).Keeps
  | [] => fun _ => Effect.keeps_never
  | selector :: rest => by
    intro same
    simp only [rewriteList, Bool.or_eq_false_iff] at same
    exact (keeps_effectUpTo Effect.keeps_always same.1).either (keeps_effectOfAny same.2)

/-- Relative selectors that have not changed match what they matched. -/
theorem keeps_effectOfSome : ∀ {selectors : List Selector},
    (scheme.rewriteList selectors).2 = false → (scheme.effectOfSome selectors).Keeps
  | [] => fun _ => Effect.keeps_never
  | selector :: rest => by
    intro same
    simp only [rewriteList, Bool.or_eq_false_iff] at same
    exact (keeps_effectUpTo Effect.keeps_unchanged same.1).somewhere.either
      (keeps_effectOfSome same.2)

end

/-! ### Negated classes -/

mutual

/-- Whether a class that gets a stable variant stands inside `:not(…)` in a component. -/
def negates (scheme : Scheme) : Component → Bool
  | .list kind selectors =>
    match kind with
    | .negation => (scheme.rewriteList selectors).2
    | _ => scheme.negatesInAny selectors
  | .wrap .slotted inner => scheme.negatesIn inner
  | .wrap .host inner => scheme.negatesIn inner
  | _ => false

/-- Whether such a class stands inside `:not(…)` in a selector. -/
def negatesIn (scheme : Scheme) : Selector → Bool
  | .mk components _ => scheme.negatesInAll components

/-- Whether such a class stands inside `:not(…)` in one of the components. -/
def negatesInAll (scheme : Scheme) : List Component → Bool
  | [] => false
  | component :: rest => scheme.negates component || scheme.negatesInAll rest

/-- Whether such a class stands inside `:not(…)` in one of the selectors. -/
def negatesInAny (scheme : Scheme) : List Selector → Bool
  | [] => false
  | selector :: rest => scheme.negatesIn selector || scheme.negatesInAny rest

end

mutual

/-- A component narrows if no class that gets a stable variant is negated in it. Where nothing is
negated the effect is put together from parts that narrow, and parts that never change. -/
theorem narrows_effect : ∀ {component : Component}, scheme.negates component = false →
    (scheme.effect component).narrows = true
  | .class name => by
    intro _
    unfold effect
    split <;> rfl
  | .list .negation selectors => fun none => (keeps_effectOfAny none).widens
  | .list .has selectors => fun none => narrows_effectOfSome none
  | .list .is selectors | .list .where_ selectors | .list (.any _) selectors =>
    fun none => narrows_effectOfAny none
  | .wrap .slotted inner => fun none => narrows_effectUpTo rfl none
  | .wrap .host inner => fun none =>
    show (scheme.effectUpTo .always inner).narrows = true from narrows_effectUpTo rfl none
  | .wrap .global _ | .wrap .local _ | .wrap (.element _) _ | .combinator _ | .universal
  | .ofNamespace _ | .type _ | .id _ | .attrExists _ _ | .attr _ _ _ _ _ | .nth _ | .nthOf _ _
  | .root | .empty | .scope | .host | .part _ | .nesting | .pseudoClass _ | .pseudoElement _ =>
    fun _ => rfl

/-- A selector narrows if no class that gets a stable variant is negated in it. -/
theorem narrows_effectUpTo {first : Effect} (narrows : first.narrows = true) :
    ∀ {selector : Selector}, scheme.negatesIn selector = false →
      (scheme.effectUpTo first selector).narrows = true
  | .mk _ _ => fun none => narrows_effectOfAll narrows none

/-- Components narrow if no class that gets a stable variant is negated in them. A combinator does
not change in which way the rest narrows. -/
theorem narrows_effectOfAll {first : Effect} (narrows : first.narrows = true) :
    ∀ {components : List Component}, scheme.negatesInAll components = false →
      (scheme.effectOfAll first components).narrows = true
  | [] => fun _ => by
    rw [effectOfAll]
    exact narrows
  | component :: rest => by
    intro none
    obtain ⟨here, others⟩ := Bool.or_eq_false_iff.mp none
    rw [effectOfAll]
    split
    · exact narrows_effectOfAll narrows others
    · exact Effect.narrows_both (narrows_effect here) (narrows_effectOfAll narrows others)

/-- A list of selectors narrows if no class that gets a stable variant is negated in it. -/
theorem narrows_effectOfAny : ∀ {selectors : List Selector},
    scheme.negatesInAny selectors = false → (scheme.effectOfAny selectors).narrows = true
  | [] => fun _ => rfl
  | selector :: rest => by
    intro none
    obtain ⟨here, others⟩ := Bool.or_eq_false_iff.mp none
    exact Effect.narrows_either (narrows_effectUpTo rfl here) (narrows_effectOfAny others)

/-- A list of relative selectors narrows if no class that gets a stable variant is negated in
it. -/
theorem narrows_effectOfSome : ∀ {selectors : List Selector},
    scheme.negatesInAny selectors = false → (scheme.effectOfSome selectors).narrows = true
  | [] => fun _ => rfl
  | selector :: rest => by
    intro none
    obtain ⟨here, others⟩ := Bool.or_eq_false_iff.mp none
    have narrows : (scheme.effectUpTo .unchanged selector).narrows = true :=
      narrows_effectUpTo rfl here
    exact Effect.narrows_either narrows (narrows_effectOfSome others)

end

end Scheme

end StyleGraph.Stable
