import StyleGraph.Css.Selector.Basic

/-!
# Written selectors

Writing selectors, with names of classes and identifiers made local where a scope is given. A
universal selector next to another simple selector is left out, an `:is(…)` around one compound
without a type selector is left out, and the implied `:scope` of a relative selector is left out.
-/

set_option autoImplicit false

namespace StyleGraph.Css

/-- How a sheet is written. -/
structure Style where
  /-- Without blanks that are not needed. -/
  compact : Bool := false
  /-- What local names begin with, if names are made local. -/
  scope : Option String := none
  deriving DecidableEq, Repr, Inhabited

namespace Style

/-- A name as it is, or made local. -/
def localName (style : Style) (name : String) : String :=
  match style.scope with
  | none => name
  | some scope => scope ++ "_" ++ name

/-- A local name in its written form. -/
def renderLocal (style : Style) (name : String) : String :=
  match style.scope with
  | none => Ident.render name
  | some scope => Ident.render scope ++ Ident.renderRest ("_" ++ name)

/-- A character between blanks, which the compact form leaves out. -/
def around (style : Style) (c : Char) : String :=
  if style.compact then String.singleton c else String.ofList [' ', c, ' ']

/-- A comma and the blank after it. -/
def comma (style : Style) : String := if style.compact then "," else ", "

/-- A blank that the compact form leaves out. -/
def gap (style : Style) : String := if style.compact then "" else " "

end Style

namespace Combinator

/-- The written form. -/
def render (style : Style) : Combinator → String
  | .child => style.around '>'
  | .descendant => " "
  | .nextSibling => style.around '+'
  | .laterSibling => style.around '~'
  | .pseudoElement | .slotAssignment | .part => ""

end Combinator

namespace NameSpace

/-- The written form, up to the name. -/
def render : NameSpace → String
  | .unwritten | .default _ => ""
  | .any => "*|"
  | .none => "|"
  | .named name _ => Ident.render name ++ "|"

end NameSpace

namespace AttrMatch

/-- The written form. -/
def render : AttrMatch → String
  | .equal => "="
  | .includes => "~="
  | .dash => "|="
  | .beginning => "^="
  | .ending => "$="
  | .substring => "*="

end AttrMatch

namespace AttrCase

/-- The written form, after the value. -/
def render : AttrCase → String
  | .standard => ""
  | .insensitive => " i"
  | .sensitive => " s"

end AttrCase

/-- An attribute's value: a string, in the compact form a name if that is shorter. -/
def renderAttrValue (style : Style) (value : String) : String :=
  let quoted := Ident.quote value
  let name := Ident.render value
  if style.compact && !name.isEmpty && name.utf8ByteSize < quoted.utf8ByteSize then name
  else quoted

namespace Nth

/-- An integer with its sign, whichever it is. -/
def signed (n : Int) : String := if n < 0 then toString n else "+" ++ toString n

/-- The written form of a position. -/
def renderPosition (step offset : Int) : String :=
  if step = 0 then toString offset
  else if step = 2 && offset = 1 then "odd"
  else
    let lead := if step = 1 then "n" else if step = -1 then "-n" else toString step ++ "n"
    if offset = 0 then lead else lead ++ signed offset

/-- The name of the pseudo-class. -/
def name (nth : Nth) : String :=
  match nth.function, nth.kind with
  | true, .child => "nth-child"
  | true, .lastChild => "nth-last-child"
  | true, .ofType => "nth-of-type"
  | true, .lastOfType => "nth-last-of-type"
  | true, .onlyChild => "only-child"
  | true, .onlyOfType => "only-of-type"
  | _, .col => "nth-col"
  | _, .lastCol => "nth-last-col"
  | false, .child => "first-child"
  | false, .lastChild => "last-child"
  | false, .onlyChild => "only-child"
  | false, .ofType => "first-of-type"
  | false, .lastOfType => "last-of-type"
  | false, .onlyOfType => "only-of-type"

/-- The written form of the pseudo-class. -/
def render (nth : Nth) : String :=
  ":" ++ nth.name ++
    (if nth.function then "(" ++ renderPosition nth.step nth.offset ++ ")" else "")

end Nth

namespace PseudoClass

/-- The written form. -/
def render (style : Style) : PseudoClass → String
  | .known name => ":" ++ name
  | .lang languages =>
    ":lang(" ++ String.intercalate style.comma (languages.map Ident.render) ++ ")"
  | .dir direction => ":dir(" ++ direction ++ ")"
  | .unknown name => ":" ++ name
  | .unknownFunction name content => ":" ++ name ++ "(" ++ Item.renderRaw content ++ ")"

end PseudoClass

namespace PseudoElement

/-- The pseudo-elements that one colon introduces. -/
def oneColon : List String := ["before", "after", "first-line", "first-letter"]

/-- The written form. -/
def render : PseudoElement → String
  | .known name => (if oneColon.contains name then ":" else "::") ++ name
  | .knownFunction name argument => "::" ++ name ++ "(" ++ argument ++ ")"
  | .unknown name => "::" ++ name
  | .unknownFunction name content => "::" ++ name ++ "(" ++ Item.renderRaw content ++ ")"

end PseudoElement

namespace ListKind

/-- The name of the pseudo-class. -/
def name : ListKind → String
  | .negation => "not"
  | .is => "is"
  | .where_ => "where"
  | .has => "has"
  | .any vendor => "-" ++ vendor ++ "-any"

end ListKind

namespace Component

/-- Whether a component is a type selector or the universal selector. -/
def isType : Component → Bool
  | .type _ | .universal => true
  | _ => false

/-- Whether a component is a namespace that is written or the default. -/
def isNamespace : Component → Bool
  | .ofNamespace _ => true
  | _ => false

/-- Whether a component is `:scope`. -/
def isScope : Component → Bool
  | .scope => true
  | _ => false

/-- Whether a component is `&`. -/
def isNesting : Component → Bool
  | .nesting => true
  | _ => false

/-- Whether a component is the universal selector. -/
def isUniversal : Component → Bool
  | .universal => true
  | _ => false

end Component

namespace Selector

/-- Whether a selector is one compound. -/
def isCompound (selector : Selector) : Bool :=
  selector.components.all fun component => !component.isCombinator

/-- Whether the last simple selector, leaving a namespace aside, is a type selector. -/
def endsInType (selector : Selector) : Bool :=
  match selector.components.reverse with
  | [] => false
  | first :: rest => if first.isNamespace then rest.head?.any Component.isType else first.isType

end Selector

/-- Whether `:is` around a list can be left out. -/
def unwrapsIs : List Selector → Bool
  | [selector] => selector.isCompound && !selector.endsInType
  | _ => false

/-- A component and its written form. -/
abbrev Written := Component × String

/-- The written form of a compound, given those of its components and the combinator after it. -/
def renderCompound (next : Option Combinator) (leadingNesting : Bool) (compound : List Written) :
    String :=
  let lead := if leadingNesting then 1 else 0
  let (elides, first) : Bool × Nat :=
    match (compound.drop lead).head?.map Prod.fst with
    | some (.ofNamespace (.default _)) => (true, lead + 1)
    | some (.ofNamespace _) => (false, lead + 1)
    | _ => (true, lead)
  let alone :=
    first + 1 == compound.length &&
      (match next with
      | some .pseudoElement | some .slotAssignment => false
      | _ => true) &&
      (compound.drop first).head?.any fun entry => entry.1.isUniversal
  let shown :=
    if alone then compound
    else compound.filter fun entry => !(entry.1.isUniversal && elides)
  String.join (shown.map Prod.snd)

/-- Puts compounds and combinators together, both in written order. Compounds without a simple
selector take no combinator. -/
def renderCompounds (style : Style) :
    Bool → Bool → List (List Written) → List Combinator → String
  | _, _, [], _ => ""
  | relative, first, compound :: rest, combinators =>
    let skipsScope := relative && compound.head?.any fun entry => entry.1.isScope
    let lead := if skipsScope then ((combinators.head?.map (·.render style)).getD "") else ""
    let combinators := if skipsScope then combinators.tail else combinators
    let compound := if skipsScope then compound.tail else compound
    let relative := relative && !skipsScope
    if compound.isEmpty then lead ++ renderCompounds style relative first rest combinators
    else
      let leadingNesting := first && compound.head?.any fun entry => entry.1.isNesting
      lead ++ renderCompound combinators.head? leadingNesting compound ++
        ((combinators.head?.map (·.render style)).getD "") ++
        renderCompounds style relative false rest combinators.tail

/-- The compounds of components in matching order, and the combinators between them. -/
def splitWritten : List Written → List (List Written) × List Combinator
  | [] => ([[]], [])
  | entry :: rest =>
    let (compounds, combinators) := splitWritten rest
    match entry.1, compounds with
    | .combinator combinator, compounds => ([] :: compounds, combinator :: combinators)
    | _, compound :: more => ((entry :: compound) :: more, combinators)
    | _, [] => ([[entry]], combinators)

/-- The written form of a selector, given those of its components in matching order. -/
def assemble (style : Style) (relative : Bool) (entries : List Written) : String :=
  let (compounds, combinators) := splitWritten entries
  renderCompounds style relative true compounds.reverse combinators.reverse

mutual

/-- The written form of a component. -/
def Component.render (style : Style) : Component → String
  | .combinator joint => joint.render style
  | .universal => "*"
  | .ofNamespace space => space.render
  | .type name => Ident.render name
  | .id name => "#" ++ style.renderLocal name
  | .class name => "." ++ style.renderLocal name
  | .attrExists space name => "[" ++ space.render ++ Ident.render name ++ "]"
  | .attr space name matching value letterCase =>
    "[" ++ space.render ++ Ident.render name ++ matching.render ++ renderAttrValue style value ++
      letterCase.render ++ "]"
  | .list kind selectors =>
    let texts := Selector.renderEach style (kind = .has) selectors
    match kind, unwrapsIs selectors, texts with
    | .is, true, [text] => text
    | kind, _, texts => ":" ++ kind.name ++ "(" ++ String.intercalate style.comma texts ++ ")"
  | .wrap kind inner =>
    match kind with
    | .slotted => "::slotted(" ++ Selector.render style false inner ++ ")"
    | .host => ":host(" ++ Selector.render style false inner ++ ")"
    | .global => Selector.render { style with scope := none } false inner
    | .local => Selector.render style false inner
    | .element name => "::" ++ name ++ "(" ++ Selector.render style false inner ++ ")"
  | .nth nth => nth.render
  | .nthOf nth selectors =>
    ":" ++ nth.name ++ "(" ++ Nth.renderPosition nth.step nth.offset ++ " of " ++
      String.intercalate style.comma (Selector.renderEach style false selectors) ++ ")"
  | .root => ":root"
  | .empty => ":empty"
  | .scope => ":scope"
  | .host => ":host"
  | .part names => "::part(" ++ String.intercalate " " (names.map Ident.render) ++ ")"
  | .nesting => "&"
  | .pseudoClass pseudo => pseudo.render style
  | .pseudoElement pseudo => pseudo.render

/-- The written form of a selector; a relative one leaves out the implied `:scope`. -/
def Selector.render (style : Style) (relative : Bool) : Selector → String
  | .mk components _ => assemble style relative (Component.renderEach style components)

/-- Components with their written forms. -/
def Component.renderEach (style : Style) : List Component → List Written
  | [] => []
  | component :: rest => (component, component.render style) :: Component.renderEach style rest

/-- The written forms of selectors. -/
def Selector.renderEach (style : Style) (relative : Bool) : List Selector → List String
  | [] => []
  | selector :: rest => selector.render style relative :: Selector.renderEach style relative rest

end

/-- The written form of a selector list. -/
def Selector.renderList (style : Style) (selectors : List Selector) : String :=
  String.intercalate style.comma (Selector.renderEach style false selectors)

mutual

/-- The names of classes and identifiers that writing makes local, in order. -/
def Component.locals : Component → List String
  | .id name => [name]
  | .class name => [name]
  | .list _ selectors => Selector.localsOfList selectors
  | .wrap .global _ => []
  | .wrap _ inner => inner.locals
  | .nthOf _ selectors => Selector.localsOfList selectors
  | _ => []

/-- The local names of a selector. -/
def Selector.locals : Selector → List String
  | .mk components _ => Component.localsOfList components

/-- The local names of components. -/
def Component.localsOfList : List Component → List String
  | [] => []
  | component :: rest => component.locals ++ Component.localsOfList rest

/-- The local names of selectors. -/
def Selector.localsOfList : List Selector → List String
  | [] => []
  | selector :: rest => selector.locals ++ Selector.localsOfList rest

end

end StyleGraph.Css
