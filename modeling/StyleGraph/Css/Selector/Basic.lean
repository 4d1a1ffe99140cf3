import StyleGraph.Css.Item

/-!
# Selectors

A selector is a list of components in the order in which matching looks at them: its compounds
from right to left, a combinator between neighbours, and inside a compound the simple selectors as
they are written. `Selector.written` turns the compounds round, `Selector.ofWritten` turns them
back.

What follows a combinator of the last three kinds is written without a mark of its own: a
pseudo-element belongs to the compound before it.
-/

set_option autoImplicit false

namespace StyleGraph.Css

/-- What stands between two compounds. -/
inductive Combinator
  | child
  | descendant
  | nextSibling
  | laterSibling
  /-- Before a pseudo-element. -/
  | pseudoElement
  /-- Before `::slotted(…)`. -/
  | slotAssignment
  /-- Before `::part(…)`. -/
  | part
  deriving DecidableEq, Repr, Inhabited

namespace Combinator

/-- Whether a combinator only marks a pseudo-element. -/
def isPseudoElement : Combinator → Bool
  | .pseudoElement => true
  | _ => false

end Combinator

/-- How an attribute's value is compared. -/
inductive AttrMatch
  | equal
  | includes
  | dash
  | beginning
  | ending
  | substring
  deriving DecidableEq, Repr, Inhabited

/-- Whether letter case counts in a comparison. -/
inductive AttrCase
  | standard
  | insensitive
  | sensitive
  deriving DecidableEq, Repr, Inhabited

/-- The namespace of a name. -/
inductive NameSpace
  /-- None is written, and none is declared as the default. -/
  | unwritten
  /-- None is written, and the default one is meant. -/
  | default (url : String)
  /-- `*|`. -/
  | any
  /-- `|` with nothing before it. -/
  | none
  /-- A declared one. -/
  | named (name url : String)
  deriving DecidableEq, Repr, Inhabited

/-- The children that a position counts. -/
inductive NthKind
  | child
  | lastChild
  | onlyChild
  | ofType
  | lastOfType
  | onlyOfType
  | col
  | lastCol
  deriving DecidableEq, Repr, Inhabited

/-- A position `step · n + offset`; `function` tells whether it is written as a function. -/
structure Nth where
  kind : NthKind
  function : Bool
  step : Int
  offset : Int
  deriving DecidableEq, Repr, Inhabited

/-- A pseudo-class without a selector inside. -/
inductive PseudoClass
  /-- A known one, by its name. -/
  | known (name : String)
  | lang (languages : List String)
  | dir (direction : String)
  /-- A known function of uninterpreted content. -/
  | unknown (name : String)
  | unknownFunction (name : String) (content : List Item)
  deriving DecidableEq, Repr, Inhabited

/-- A pseudo-element without a selector inside. -/
inductive PseudoElement
  /-- A known one, by its name. -/
  | known (name : String)
  /-- A known function of one name. -/
  | knownFunction (name argument : String)
  | unknown (name : String)
  | unknownFunction (name : String) (content : List Item)
  deriving DecidableEq, Repr, Inhabited

/-- What a selector is known to hold, as found when it was read. -/
structure SelectorFlags where
  hasPseudoElement : Bool := false
  hasSlotted : Bool := false
  hasPart : Bool := false
  deriving DecidableEq, Repr, Inhabited

/-- The pseudo-classes that take a list of selectors. -/
inductive ListKind
  | negation
  | is
  | where_
  | has
  /-- An older name of `is`, with its vendor's prefix. -/
  | any (vendor : String)
  deriving DecidableEq, Repr, Inhabited

/-- The pseudo-classes and pseudo-elements that take one selector. -/
inductive WrapKind
  | slotted
  | host
  /-- Names inside are never made local. -/
  | global
  /-- Names inside are made local. -/
  | local
  /-- A pseudo-element such as `::cue(…)`. -/
  | element (name : String)
  deriving DecidableEq, Repr, Inhabited

mutual

/-- A simple selector or a combinator. -/
inductive Component
  | combinator (combinator : Combinator)
  | universal
  /-- The namespace of the type or universal selector that follows. -/
  | ofNamespace (space : NameSpace)
  | type (name : String)
  | id (name : String)
  | class (name : String)
  | attrExists (space : NameSpace) (name : String)
  | attr (space : NameSpace) (name : String) (matching : AttrMatch) (value : String)
    (letterCase : AttrCase)
  | list (kind : ListKind) (selectors : List Selector)
  | wrap (kind : WrapKind) (inner : Selector)
  | nth (nth : Nth)
  | nthOf (nth : Nth) (selectors : List Selector)
  | root
  | empty
  | scope
  /-- `:host` without a selector inside. -/
  | host
  | part (names : List String)
  /-- `&`. -/
  | nesting
  | pseudoClass (pseudo : PseudoClass)
  | pseudoElement (pseudo : PseudoElement)

/-- A selector: its components in matching order, and what was found when it was read. -/
inductive Selector
  | mk (components : List Component) (flags : SelectorFlags)

end

instance : Inhabited Component := ⟨.universal⟩

instance : Inhabited Selector := ⟨.mk [] {}⟩

namespace Component

/-- The combinator that a component is. -/
def combinator? : Component → Option Combinator
  | .combinator joint => some joint
  | _ => none

/-- Whether a component is a combinator. -/
def isCombinator (component : Component) : Bool := component.combinator?.isSome

/-- The name of a class. -/
def class? : Component → Option String
  | .class name => some name
  | _ => none

end Component

mutual

/-- Whether two components are the same. -/
def Component.same : Component → Component → Bool
  | .combinator a, .combinator b => a = b
  | .universal, .universal => true
  | .ofNamespace a, .ofNamespace b => a = b
  | .type a, .type b => a = b
  | .id a, .id b => a = b
  | .class a, .class b => a = b
  | .attrExists s a, .attrExists t b => s = t && a = b
  | .attr s a m v c, .attr t b n w d => s = t && a = b && m = n && v = w && c = d
  | .list a xs, .list b ys => a = b && Selector.sameAll xs ys
  | .wrap a x, .wrap b y => a = b && Selector.same x y
  | .nth a, .nth b => a = b
  | .nthOf a xs, .nthOf b ys => a = b && Selector.sameAll xs ys
  | .root, .root => true
  | .empty, .empty => true
  | .scope, .scope => true
  | .host, .host => true
  | .part a, .part b => a = b
  | .nesting, .nesting => true
  | .pseudoClass a, .pseudoClass b => a = b
  | .pseudoElement a, .pseudoElement b => a = b
  | _, _ => false

/-- Whether two selectors are the same, what was found on reading included. -/
def Selector.same : Selector → Selector → Bool
  | .mk xs f, .mk ys g => Component.sameAll xs ys && f = g

/-- Whether two lists of components are the same. -/
def Component.sameAll : List Component → List Component → Bool
  | [], [] => true
  | x :: xs, y :: ys => Component.same x y && Component.sameAll xs ys
  | _, _ => false

/-- Whether two lists of selectors are the same. -/
def Selector.sameAll : List Selector → List Selector → Bool
  | [], [] => true
  | x :: xs, y :: ys => Selector.same x y && Selector.sameAll xs ys
  | _, _ => false

end

instance : BEq Component := ⟨Component.same⟩

instance : BEq Selector := ⟨Selector.same⟩

mutual

/-- Whether `&` stands in a component. -/
def Component.usesNesting : Component → Bool
  | .nesting => true
  | .list _ selectors => Selector.anyUsesNesting selectors
  | .wrap _ selector => Selector.usesNesting selector
  | .nthOf _ selectors => Selector.anyUsesNesting selectors
  | _ => false

/-- Whether `&` stands in a selector. -/
def Selector.usesNesting : Selector → Bool
  | .mk components _ => Component.anyUsesNesting components

/-- Whether `&` stands in one of the components. -/
def Component.anyUsesNesting : List Component → Bool
  | [] => false
  | component :: rest => component.usesNesting || Component.anyUsesNesting rest

/-- Whether `&` stands in one of the selectors. -/
def Selector.anyUsesNesting : List Selector → Bool
  | [] => false
  | selector :: rest => selector.usesNesting || Selector.anyUsesNesting rest

end

namespace Selector

/-- The components in matching order. -/
def components : Selector → List Component
  | .mk components _ => components

/-- What was found on reading. -/
def flags : Selector → SelectorFlags
  | .mk _ flags => flags

/-- The items before the first break, and those after each break, with the break. -/
def split {α : Type} (breaks : α → Bool) : List α → List α × List (α × List α)
  | [] => ([], [])
  | item :: rest =>
    let (first, others) := split breaks rest
    if breaks item then ([], (item, first) :: others) else (item :: first, others)

/-- Turns the order of the runs between breaks round and leaves every run as it is. -/
def turn {α : Type} (breaks : α → Bool) (items : List α) : List α :=
  let (first, others) := split breaks items
  others.foldl (fun turned other => other.2 ++ other.1 :: turned) first

/-- The components in the order in which they are written. -/
def written (selector : Selector) : List Component :=
  turn Component.isCombinator selector.components

/-- The selector with the given components in written order, nothing being known about it. -/
def ofWritten (components : List Component) : Selector :=
  .mk (turn Component.isCombinator components) {}

end Selector

end StyleGraph.Css
