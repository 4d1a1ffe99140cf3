import StyleGraph.Static.Value
import StyleGraph.Text.Cut

/-!
# Declarations of style objects

The keys of a style object become properties in hyphenated spelling, and its numbers get the unit
`px` where the property takes one.
-/

set_option autoImplicit false

namespace StyleGraph.Static

/-- Properties whose numbers take no unit. -/
def unitlessProperties : List String :=
  ["animation-iteration-count", "aspect-ratio", "border-image-outset", "border-image-slice",
    "border-image-width", "box-flex", "box-flex-group", "box-ordinal-group", "column-count",
    "columns", "fill-opacity", "flex", "flex-grow", "flex-negative", "flex-order", "flex-positive",
    "flex-shrink", "flood-opacity", "font-weight", "grid-area", "grid-column", "grid-column-end",
    "grid-column-span", "grid-column-start", "grid-row", "grid-row-end", "grid-row-span",
    "grid-row-start", "line-clamp", "line-height", "opacity", "order", "orphans", "scale",
    "stop-opacity", "stroke-dasharray", "stroke-dashoffset", "stroke-miterlimit", "stroke-opacity",
    "stroke-width", "tab-size", "widows", "z-index", "zoom"]

/-- A capital as a hyphen and the small letter. -/
def hyphenChar (c : Char) : List Char := if c.isUpper then ['-', c.toLower] else [c]

/-- The hyphenated spelling of a property. A leading capital begins a vendor prefix, and the prefix
`ms` gets its hyphen although it is written small; a name of one letter and custom properties get
none. -/
def hyphenate (property : String) : String :=
  match property.toList with
  | [c] => String.singleton c.toLower
  | '-' :: '-' :: _ => property
  | cs =>
    let spelled := cs.flatMap hyphenChar
    String.ofList (if Text.startsWith "ms-".toList spelled then '-' :: spelled else spelled)

/-- Whether the numbers of a property take no unit. -/
def isUnitless (property : String) : Bool :=
  Text.startsWith ['-', '-'] property.toList || unitlessProperties.contains property

/-- A number as the value of a property. Zero takes no unit. -/
def numericValue (property : String) (value : Number.Binary64) : String :=
  if value.isZero || isUnitless property then value.render else value.render ++ "px"

/-- The custom property that a name stands for: what is inside `var(…)`, else the name with two
hyphens before it. -/
def customProperty (name : String) : String :=
  let cs := name.toList
  match (Text.stripStart? "var(".toList cs).bind (Text.stripEnd? [')']) with
  | some inner => String.ofList inner
  | none => if Text.startsWith ['-', '-'] cs then name else "--" ++ name

/-- What a key of a style object is for. -/
inductive KeyRole
  /-- A nested rule for a pseudo-class or pseudo-element. -/
  | pseudo
  /-- Nested rules by their selectors. -/
  | selectors
  /-- A nested rule whose selector is the key, with `&` for the selector around it. -/
  | nested
  /-- Nested rules by their conditions, of the named kind. -/
  | conditions (kind : String)
  /-- Custom properties. -/
  | customProperties
  | declaration
  deriving DecidableEq, Repr

/-- The role of a key. -/
def KeyRole.of (key : String) : KeyRole :=
  let cs := key.toList
  if cs.head? = some ':' then .pseudo
  else if key = "selectors" then .selectors
  else if cs.contains '&' then .nested
  else
    match cs with
    | '@' :: kind => .conditions (String.ofList kind)
    | _ => if key = "vars" then .customProperties else .declaration

/-- A property and its value. -/
abbrev Declaration := String × String

/-- The declaration of one value of a property, if there is one: what is undefined or unresolved
declares nothing. -/
def declarationOf (key property : String) (value : Value) : Except Fault (Option Declaration) :=
  match value with
  | .number n => .ok (some (property, numericValue property n))
  | .undefined | .unresolved _ => .ok none
  | value =>
    match value.asText? with
    | some text => .ok (some (property, text))
    | none => .error (.invalidValue key)

/-- The declaration of a custom property, if there is one. -/
def variableOf (entry : String × Value) : Except Fault (Option Declaration) :=
  let name := customProperty entry.1
  match entry.2 with
  | .unresolved _ => .ok none
  | value =>
    match value.asText? with
    | some text => .ok (some (name, text))
    | none => .error (.invalidVariable name)

/-- The results that are there, in order, or the first fault. -/
def collect {α β : Type} (f : α → Except Fault (Option β)) : List α → Except Fault (List β)
  | [] => .ok []
  | a :: rest => do
    let found ← f a
    let more ← collect f rest
    pure (found.toList ++ more)

/-- The declarations of one entry of a style object. A list gives one declaration for each of its
items, and nested rules give none. -/
def entryDeclarations (entry : String × Value) : Except Fault (List Declaration) :=
  match KeyRole.of entry.1 with
  | .customProperties =>
    match entry.2 with
    | .object entries => collect variableOf entries
    | _ => .error .varsNotObject
  | .declaration =>
    let values :=
      match entry.2 with
      | .array fallbacks => fallbacks
      | single => [single]
    collect (declarationOf entry.1 (hyphenate entry.1)) values
  | _ => .ok []

/-- The declarations of a style object, nested rules left out. -/
def declarations : Entries → Except Fault (List Declaration)
  | [] => .ok []
  | entry :: rest => do
    let here ← entryDeclarations entry
    let more ← declarations rest
    pure (here ++ more)

end StyleGraph.Static
