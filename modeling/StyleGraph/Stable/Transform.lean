import StyleGraph.Css.Rule
import StyleGraph.Stable.Auto

/-!
# Rewriting selectors

A transform gives a selector a rewritten form, or leaves it alone. Some transforms put the
rewritten form in place of the selector, others add it to the list if it is new there. A pipeline
applies transforms one after the other to the selector list of every style rule.

Boosting is a transform of the first kind: it repeats a class of the last compound, so that the
rule weighs more. Adding stable variants is one of the second kind.
-/

set_option autoImplicit false

namespace StyleGraph.Stable

open Css

/-- How a selector is made to weigh more. -/
structure Boost where
  /-- How often a class is repeated. -/
  times : Nat := 1
  /-- The classes that can be repeated: those that match one of the patterns, or all. -/
  patterns : List Pattern := []
  deriving DecidableEq, Repr, Inhabited

namespace Boost

/-- Whether a class can be repeated. -/
def accepts (boost : Boost) (name : String) : Bool :=
  boost.patterns.isEmpty || boost.patterns.any fun pattern => pattern.isMatch name

/-- Whether a component is a class that can be repeated. -/
def isTarget (boost : Boost) (component : Component) : Bool :=
  component.class?.any boost.accepts

/-- Repeats the last accepted class of a compound. -/
def repeatIn (boost : Boost) (compound : List Component) : Option (List Component) :=
  match (compound.reverse.span fun component => !boost.isTarget component) with
  | (after, target :: before) =>
    some (before.reverse ++ List.replicate (boost.times + 1) target ++ after.reverse)
  | _ => none

/-- Repeats a class of the last compound; pseudo-elements hang off the compound before them. The
components are in written order. -/
def rewriteWritten (boost : Boost) (components : List Component) : Option (List Component) :=
  let breaks (component : Component) : Bool :=
    component.combinator?.any fun combinator => !combinator.isPseudoElement
  let tail := (components.reverse.takeWhile fun component => !breaks component).reverse
  let lead := (components.reverse.dropWhile fun component => !breaks component).reverse
  let compound := tail.takeWhile fun component => !component.isCombinator
  let after := tail.dropWhile fun component => !component.isCombinator
  (boost.repeatIn compound).map fun boosted => lead ++ boosted ++ after

/-- The boosted form of a selector, if it has a class to repeat. -/
def rewrite (boost : Boost) (selector : Selector) : Option Selector :=
  if boost.times = 0 then none
  else (boost.rewriteWritten selector.written).map Selector.ofWritten

/-- Whether a selector has a class to repeat. -/
def hasTarget (boost : Boost) (selector : Selector) : Bool :=
  (rewrite { boost with times := 1 } selector).isSome

/-- The largest machine word. -/
def maxWord : Nat := Number.twoTo 64 - 1

/-- How many components room is made for, before a selector is boosted: a sum of machine words, which
is not checked. -/
def room (boost : Boost) (selector : Selector) : UInt64 :=
  UInt64.ofNat selector.components.length + UInt64.ofNat boost.times

/-- A sum of components and copies that is no machine word. -/
structure Overflow where
  components : Nat
  times : Nat
  deriving DecidableEq, Repr

/-- The boosted form of a selector where the sum of the room is checked. It is added up only for a
selector that has a class to repeat. -/
def rewriteChecked (boost : Boost) (selector : Selector) : Except Overflow (Option Selector) :=
  if boost.times = 0 then .ok none
  else if boost.hasTarget selector ∧ maxWord < selector.components.length + boost.times then
    .error ⟨selector.components.length, boost.times⟩
  else .ok (boost.rewrite selector)

end Boost

/-- What becomes of the rewritten form. -/
inductive Mode
  /-- It is added if it is new. -/
  | append
  /-- It takes the selector's place. -/
  | replace
  deriving DecidableEq, Repr, Inhabited

/-- A rewriting of selectors. -/
structure Transform where
  mode : Mode
  /-- The rewritten form of a selector that changes. -/
  rewrite : Selector → Option Selector

instance : Inhabited Transform := ⟨⟨.append, fun _ => none⟩⟩

namespace Transform

/-- Boosting. -/
def ofBoost (boost : Boost) : Transform := ⟨.replace, boost.rewrite⟩

/-- Adding stable variants. -/
def ofScheme (scheme : Scheme) : Transform where
  mode := .append
  rewrite selector :=
    let (rewritten, changed) := scheme.rewriteSelector selector
    if changed then some rewritten else none

/-- Adds a selector to a list that does not have it. -/
def insert (selectors : List Selector) (selector : Selector) : List Selector :=
  if selectors.any fun other => other.same selector then selectors else selectors ++ [selector]

/-- A transform applied to a selector list. -/
def apply (transform : Transform) (selectors : List Selector) : List Selector :=
  match transform.mode with
  | .replace => selectors.map fun selector => (transform.rewrite selector).getD selector
  | .append => (selectors.filterMap transform.rewrite).foldl insert selectors

end Transform

/-- Transforms in the order in which they are applied. -/
abbrev Pipeline := List Transform

namespace Pipeline

/-- All transforms applied to a selector list, one after the other. -/
def apply (pipeline : Pipeline) (selectors : List Selector) : List Selector :=
  pipeline.foldl (fun selectors transform => transform.apply selectors) selectors

/-- All transforms applied to every style rule of a sheet. -/
def run (pipeline : Pipeline) (sheet : Sheet) : Sheet := sheet.mapSelectors pipeline.apply

end Pipeline

end StyleGraph.Stable
