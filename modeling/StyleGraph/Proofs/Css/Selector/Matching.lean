import Mathlib.Logic.Relation
import StyleGraph.Css.Selector.Printer
import StyleGraph.Proofs.Css.Selector.Places

/-!
# Matching and specificity

What selectors match in a tree of elements, and how much they weigh in the cascade. A tree is a set
of nodes with the links that combinators follow; pseudo-elements are nodes too, linked to the
element that they belong to. What a simple selector without a selector inside asks of a node is left
open, classes apart.

Matching looks at the components in the order in which a selector holds them: those of the last
compound first, then over a combinator to some node that the compound before it matches.

Two documents of the same nodes and links may differ only in the names of classes
(`Document.Renames`). What a simple selector asks beside classes is the same in both; a selector
inside it may hold classes, and then nothing is said of it.
-/

set_option autoImplicit false

namespace StyleGraph.Css

/-- A tree of elements. -/
structure Document (Node : Type) where
  parent? : Node → Option Node
  previous? : Node → Option Node
  /-- The element that a pseudo-element belongs to. -/
  origin? : Node → Option Node
  /-- The slot that an element is assigned to. -/
  slot? : Node → Option Node
  /-- The host of the tree that an element is a part of. -/
  partHost? : Node → Option Node
  HasClass : Node → String → Prop
  IsHost : Node → Prop
  /-- Whether a node is at a position among the nodes that are counted. -/
  IsAt : Nth → (Node → Prop) → Node → Prop
  /-- What all other simple selectors ask. -/
  Satisfies : Component → Node → Prop

/-- What `:scope` and `&` stand for. -/
structure Context (Node : Type) where
  Scope : Node → Prop
  Nesting : Node → Prop

variable {Node : Type}

/-- A combinator leads from a node to another one. -/
def Document.Leads (document : Document Node) : Combinator → Node → Node → Prop
  | .child => fun node next => document.parent? node = some next
  | .descendant => Relation.TransGen fun node next => document.parent? node = some next
  | .nextSibling => fun node next => document.previous? node = some next
  | .laterSibling => Relation.TransGen fun node next => document.previous? node = some next
  | .pseudoElement => fun node next => document.origin? node = some next
  | .slotAssignment => fun node next => document.slot? node = some next
  | .part => fun node next => document.partHost? node = some next

/-- Whether a selector says itself where `:scope` is. -/
def Selector.isAnchored (selector : Selector) : Bool :=
  selector.components.any Component.isScope

mutual

/-- A component matches a node. -/
def Component.Matches (document : Document Node) (context : Context Node) :
    Component → Node → Prop
  | .class name, node => document.HasClass node name
  | .list kind selectors, node =>
    match kind with
    | .negation => ¬ Selector.AnyMatches document context selectors node
    | .has => Selector.AnyBelow document { context with Scope := (· = node) } node selectors
    | _ => Selector.AnyMatches document context selectors node
  | .wrap .slotted inner, node => Selector.MatchesUpTo document context (fun _ => True) inner node
  | .wrap .host inner, node =>
    document.IsHost node ∧ Selector.MatchesUpTo document context (fun _ => True) inner node
  | .nth nth, node => document.IsAt nth (fun _ => True) node
  | .nthOf nth selectors, node =>
    Selector.AnyMatches document context selectors node ∧
      document.IsAt nth (Selector.AnyMatches document context selectors) node
  | .scope, node => context.Scope node
  | .nesting, node => context.Nesting node
  | component, node => document.Satisfies component node

/-- A selector matches a node, and the node of its first compound is as asked. -/
def Selector.MatchesUpTo (document : Document Node) (context : Context Node)
    (First : Node → Prop) : Selector → Node → Prop
  | .mk components _, node => Component.AllMatch document context First components node

/-- Components match from a node on, and the node of the last ones is as asked. -/
def Component.AllMatch (document : Document Node) (context : Context Node)
    (First : Node → Prop) : List Component → Node → Prop
  | [], node => First node
  | component :: rest, node =>
    match component.combinator? with
    | some joint =>
      ∃ next, document.Leads joint node next ∧
        Component.AllMatch document context First rest next
    | none =>
      Component.Matches document context component node ∧
        Component.AllMatch document context First rest node

/-- One of the selectors matches a node. -/
def Selector.AnyMatches (document : Document Node) (context : Context Node) :
    List Selector → Node → Prop
  | [], _ => False
  | selector :: rest, node =>
    Selector.MatchesUpTo document context (fun _ => True) selector node ∨
      Selector.AnyMatches document context rest node

/-- One of the selectors matches some node, relative to an anchor: below it, unless the selector
says itself where the anchor is. -/
def Selector.AnyBelow (document : Document Node) (context : Context Node) (anchor : Node) :
    List Selector → Prop
  | [] => False
  | selector :: rest =>
    (∃ node, Selector.MatchesUpTo document context
        (fun first => selector.isAnchored = true ∨ document.Leads .descendant first anchor)
        selector node) ∨
      Selector.AnyBelow document context anchor rest

end

/-- A selector matches if its components do, read from the right. -/
theorem Selector.matchesUpTo_eq {document : Document Node} {context : Context Node}
    {First : Node → Prop} {selector : Selector} {node : Node} :
    selector.MatchesUpTo document context First node =
      Component.AllMatch document context First selector.components node := by
  cases selector
  rw [MatchesUpTo, components]

/-- A selector matches a node. -/
def Selector.Matches (document : Document Node) (context : Context Node) (selector : Selector)
    (node : Node) : Prop :=
  selector.MatchesUpTo document context (fun _ => True) node

/-- A list matches what one of its selectors matches. -/
theorem Selector.anyMatches_iff {document : Document Node} {context : Context Node}
    {selectors : List Selector} {node : Node} :
    Selector.AnyMatches document context selectors node ↔
      ∃ selector ∈ selectors, selector.Matches document context node := by
  induction selectors with
  | nil => simp [AnyMatches]
  | cons selector rest ih =>
    rw [AnyMatches, ih]
    simp [Matches]

/-- A list matches relative to an anchor if one of its selectors matches some node so. -/
theorem Selector.anyBelow_iff {document : Document Node} {context : Context Node} {anchor : Node}
    {selectors : List Selector} :
    Selector.AnyBelow document context anchor selectors ↔
      ∃ selector ∈ selectors, ∃ node, selector.MatchesUpTo document context (fun first =>
        selector.isAnchored = true ∨ document.Leads .descendant first anchor) node := by
  induction selectors with
  | nil => simp [AnyBelow]
  | cons selector rest ih =>
    rw [AnyBelow, ih]
    simp

/-! ## Documents with other class names -/

/-- A document in which every class has another name, and nothing else differs. -/
structure Document.Renames (rename : String → String) (document renamed : Document Node) :
    Prop where
  parent? : renamed.parent? = document.parent?
  previous? : renamed.previous? = document.previous?
  origin? : renamed.origin? = document.origin?
  slot? : renamed.slot? = document.slot?
  partHost? : renamed.partHost? = document.partHost?
  isHost : renamed.IsHost = document.IsHost
  isAt : renamed.IsAt = document.IsAt
  hasClass : ∀ node name,
    renamed.HasClass node name ↔ ∃ before, document.HasClass node before ∧ rename before = name
  /-- What a simple selector without a class in it asks does not depend on classes. -/
  satisfies : ∀ component, (∀ inner ∈ component.inside, ∀ name, ¬ inner.HasClass name) →
    ∀ node, renamed.Satisfies component node ↔ document.Satisfies component node

namespace Document.Renames

variable {rename : String → String} {document renamed : Document Node}

/-- Combinators lead from a node to the same nodes. -/
theorem leads (renames : document.Renames rename renamed) : renamed.Leads = document.Leads := by
  funext joint
  cases joint <;>
    simp only [Document.Leads, renames.parent?, renames.previous?, renames.origin?, renames.slot?,
      renames.partHost?]

/-- A node has the new name of a class just when it has the class, if no other class of the document
gets that name. -/
theorem hasClass_rename_iff (renames : document.Renames rename renamed) {name : String}
    (apart : ∀ node before, document.HasClass node before → rename before = rename name →
      before = name) (node : Node) :
    renamed.HasClass node (rename name) ↔ document.HasClass node name := by
  rw [renames.hasClass]
  constructor
  · rintro ⟨before, classed, same⟩
    rwa [← apart node before classed same]
  · exact fun classed => ⟨name, classed, rfl⟩

/-- Components match from a node on what they matched, if each of them is changed into one that
matches what it matched, and no combinator is changed. -/
theorem allMatch_map (renames : document.Renames rename renamed) {change : Component → Component}
    (keeps : ∀ component, (change component).combinator? = component.combinator?)
    {context : Context Node} (First : Node → Prop) {components : List Component}
    (same : ∀ component ∈ components, ∀ node,
      (change component).Matches renamed context node ↔ component.Matches document context node)
    (node : Node) :
    Component.AllMatch renamed context First (components.map change) node ↔
      Component.AllMatch document context First components node := by
  induction components generalizing node with
  | nil => simp only [List.map_nil, Component.AllMatch]
  | cons component rest ih =>
    have restSame := ih fun other mem => same other (List.mem_cons_of_mem _ mem)
    simp only [List.map_cons, Component.AllMatch, keeps]
    cases component.combinator? with
    | some joint => simp only [renames.leads, restSame]
    | none => exact and_congr (same component List.mem_cons_self node) (restSame node)

end Document.Renames

/-! ## Specificity

A weight counts ids, then classes, attributes and pseudo-classes, then types and pseudo-elements. A
pseudo-class that takes a list weighs what the heaviest selector of the list weighs, `:where(…)`
nothing. What `&` weighs depends on the rule around it and is left open.
-/

/-- The weight of a selector. Ids count before classes, classes before types. -/
structure Specificity where
  ids : Nat := 0
  classes : Nat := 0
  types : Nat := 0
  deriving DecidableEq, Repr, Inhabited, Ord

namespace Specificity

/-- The weight of two components next to each other. -/
def add (first second : Specificity) : Specificity :=
  ⟨first.ids + second.ids, first.classes + second.classes, first.types + second.types⟩

instance : Add Specificity := ⟨add⟩

/-- The heavier of two weights. -/
def heavier (first second : Specificity) : Specificity :=
  if (compare first second).isLT then second else first

end Specificity

mutual

/-- The weight of a component; `nesting` is that of `&`. -/
def Component.specificity (nesting : Specificity) : Component → Specificity
  | .id _ => { ids := 1 }
  | .class _ | .attrExists _ _ | .attr _ _ _ _ _ | .pseudoClass _ | .nth _ | .root | .empty
  | .scope | .host => { classes := 1 }
  | .type _ | .pseudoElement _ | .part _ => { types := 1 }
  | .combinator _ | .universal | .ofNamespace _ => {}
  | .nesting => nesting
  | .list kind selectors =>
    match kind with
    | .where_ => {}
    | _ => Selector.heaviest nesting selectors
  | .nthOf _ selectors => { classes := 1 } + Selector.heaviest nesting selectors
  | .wrap kind inner =>
    match kind with
    | .slotted => { types := 1 } + inner.specificity nesting
    | .host => { classes := 1 } + inner.specificity nesting
    | .global | .local => { classes := 1 }
    | .element _ => { types := 1 }

/-- The weight of a selector. -/
def Selector.specificity (nesting : Specificity) : Selector → Specificity
  | .mk components _ => Component.totalSpecificity nesting components

/-- The weight of components together. -/
def Component.totalSpecificity (nesting : Specificity) : List Component → Specificity
  | [] => {}
  | component :: rest =>
    component.specificity nesting + Component.totalSpecificity nesting rest

/-- The weight of the heaviest selector of a list. -/
def Selector.heaviest (nesting : Specificity) : List Selector → Specificity
  | [] => {}
  | selector :: rest =>
    (selector.specificity nesting).heavier (Selector.heaviest nesting rest)

end

/-- Specificities are added in each of the three counts. -/
theorem Specificity.add_eq (first second : Specificity) : first + second =
    ⟨first.ids + second.ids, first.classes + second.classes, first.types + second.types⟩ := rfl

/-- Components weigh together what their parts weigh. -/
theorem Component.totalSpecificity_append (nesting : Specificity)
    (before after : List Component) :
    Component.totalSpecificity nesting (before ++ after) =
      Component.totalSpecificity nesting before + Component.totalSpecificity nesting after := by
  induction before with
  | nil => simp [Component.totalSpecificity, Specificity.add_eq]
  | cons component before ih =>
    simp only [List.cons_append, Component.totalSpecificity, ih, Specificity.add_eq,
      Nat.add_assoc]

/-- Two ids weigh more than any number of classes next to one id. -/
example (classes : Nat) :
    Specificity.heavier { ids := 2 } { ids := 1, classes } = { ids := 2 } := by
  rfl

end StyleGraph.Css
