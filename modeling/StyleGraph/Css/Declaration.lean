import StyleGraph.Css.Item
import StyleGraph.Css.Selector.Nth
import StyleGraph.Css.Selector.Printer

/-!
# Declarations

A property and its value. Values whose names matter to a sheet, such as those of `composes`, have
forms of their own; the four sides of a margin or padding are told apart; all other values are
lists of items, with colors and lengths of nothing in their shortest form where the property is
known to take them. A value that does not fit its property is kept as it is written.
-/

set_option autoImplicit false

namespace StyleGraph.Css

/-- Where composed classes are looked up. -/
inductive ComposeSource
  /-- In the same sheet. -/
  | sheet
  /-- Nowhere: the names are global. -/
  | global
  | file (path : String)
  deriving DecidableEq, Repr, Inhabited

/-- A name in a list of animations. -/
inductive AnimationName
  | none
  | named (name : String)
  | quoted (name : String)
  deriving DecidableEq, Repr, Inhabited

/-- The value of a property. -/
inductive Value
  | items (items : List Item)
  /-- The four sides of a box. -/
  | sides (top right bottom left : Item)
  | composes (names : List String) (source : ComposeSource)
  | animations (names : List AnimationName)
  /-- A value that does not fit its property. -/
  | unfit (items : List Item)
  deriving DecidableEq, Repr, Inhabited

/-- A property and its value. -/
structure Declaration where
  property : String
  value : Value
  deriving DecidableEq, Repr, Inhabited

/-- The declarations of a rule: the ordinary and the important ones. -/
structure Block where
  normal : List Declaration := []
  important : List Declaration := []
  deriving DecidableEq, Repr, Inhabited

namespace Block

/-- The number of declarations. -/
def size (block : Block) : Nat := block.normal.length + block.important.length

/-- Whether there are none. -/
def isEmpty (block : Block) : Bool := block.size == 0

/-- All declarations, the ordinary ones first. -/
def all (block : Block) : List Declaration := block.normal ++ block.important

/-- The declarations of both blocks. -/
def append (first second : Block) : Block :=
  ⟨first.normal ++ second.normal, first.important ++ second.important⟩

/-- The declarations that satisfy `p`. -/
def filter (p : Declaration → Bool) (block : Block) : Block :=
  ⟨block.normal.filter p, block.important.filter p⟩

end Block

namespace Declaration

/-- Whether a declaration composes classes. -/
def isComposes (declaration : Declaration) : Bool :=
  match declaration.value with
  | .composes _ _ => true
  | _ => false

end Declaration

namespace Value

/-- Names that a property may not give a meaning of its own. -/
def wideKeywords : List String :=
  ["initial", "inherit", "unset", "default", "revert", "revert-layer"]

/-- Properties that take a color. -/
def colorProperties : List String :=
  ["color", "background-color", "border-top-color", "border-right-color", "border-bottom-color",
   "border-left-color", "border-color", "outline-color", "text-decoration-color",
   "text-emphasis-color", "caret-color", "fill", "stroke"]

/-- Properties that take a color among other things. -/
def colorfulProperties : List String :=
  ["background", "border", "border-top", "border-right", "border-bottom", "border-left", "outline",
   "text-decoration", "box-shadow", "text-shadow"]

/-- Properties that take lengths. -/
def lengthProperties : List String :=
  ["width", "height", "min-width", "min-height", "max-width", "max-height", "top", "right",
   "bottom", "left", "margin-top", "margin-right", "margin-bottom", "margin-left", "padding-top",
   "padding-right", "padding-bottom", "padding-left", "gap", "row-gap", "column-gap",
   "border-radius", "font-size", "border-width", "letter-spacing", "text-indent"]

/-- Properties that take keywords only. -/
def keywordProperties : List String := ["display", "position", "overflow"]

/-- Units of length. -/
def lengthUnits : List String :=
  ["px", "em", "rem", "ex", "rex", "ch", "rch", "cap", "rcap", "ic", "ric", "lh", "rlh", "vw",
   "lvw", "svw", "dvw", "cqw", "vh", "lvh", "svh", "dvh", "cqh", "svi", "vi", "lvi", "dvi", "cqi",
   "vb", "lvb", "svb", "dvb", "cqb", "vmin", "lvmin", "svmin", "dvmin", "cqmin", "vmax", "lvmax",
   "svmax", "dvmax", "cqmax", "in", "cm", "mm", "q", "pt", "pc"]

/-- An item with a color's name read as the color. -/
def colored : Item → Item
  | .token (.ident name) =>
    match Color.ofName? name with
    | some shade => .color shade
    | none => .token (.ident name)
  | item => item

/-- An item with a length of nothing written without its unit. -/
def unitless : Item → Item
  | .token (.dimension value unit signed integer) =>
    if value.isZero && lengthUnits.contains (Nth.lower unit) then
      .token (.number value signed integer)
    else .token (.dimension value (Nth.lower unit) signed integer)
  | item => item

/-- Whether an item is a length, a percentage or zero. -/
def isLength : Item → Bool
  | .token (.number value _ _) => value.isZero
  | .token (.percentage _ _) => true
  | .token (.dimension _ unit _ _) => lengthUnits.contains (Nth.lower unit)
  | _ => false

/-- Whether an item is a given keyword. -/
def isKeyword (keyword : String) : Item → Bool
  | .token (.ident name) => Nth.lower name == keyword
  | _ => false

/-- The four sides of a box. -/
def sides? (auto : Bool) (items : List Item) : Option Value :=
  let parts := (items.filter fun item => !item.isBlank).map unitless
  if parts.all fun item => isLength item || (auto && isKeyword "auto" item) then
    match parts with
    | [a] => some (.sides a a a a)
    | [a, b] => some (.sides a b a b)
    | [a, b, c] => some (.sides a b c b)
    | [a, b, c, d] => some (.sides a b c d)
    | _ => none
  else none

/-- The name of one font family: names one after the other, or a string. A string goes without its
quotes if that makes it shorter. -/
def familyItems? (pieces : List Piece) : Option (List Item) :=
  let blank : Item := .token (.blank " ")
  match Piece.compact pieces with
  | [.token (.str name)] =>
    let words := (name.splitOn " ").map Ident.render
    let bare := String.intercalate " " words
    if !name.isEmpty && bare.utf8ByteSize < name.utf8ByteSize + 2 &&
        !(["serif", "sans-serif", "cursive", "fantasy", "monospace", "system-ui"].contains
          (Nth.lower name)) && !wideKeywords.contains (Nth.lower name) then
      some (List.intersperse blank ((name.splitOn " ").map fun word => .token (.ident word)))
    else some [.token (.str name)]
  | [] => none
  | pieces => do
    let names ← pieces.mapM fun piece =>
      match piece with
      | .token (.ident name) => some (Item.token (.ident name))
      | _ => none
    some (List.intersperse blank names)

/-- The names of font families. -/
def families? (pieces : List Piece) : Option Value := do
  let families ← (Piece.splitAt Piece.isComma pieces).mapM familyItems?
  some (.items (List.intersperse [Item.token .comma] families).flatten)

/-- The names of animations. -/
def animations? (pieces : List Piece) : Option Value := do
  let names ← (Piece.splitAt Piece.isComma pieces).mapM fun part =>
    match Piece.compact part with
    | [.token (.ident name)] =>
      if Nth.lower name == "none" then some AnimationName.none
      else if wideKeywords.contains (Nth.lower name) then Option.none
      else some (.named name)
    | [.token (.str name)] => some (.quoted name)
    | _ => Option.none
  some (.animations names)

/-- The names that lead a list of pieces, up to the word `from`. -/
def composedNames : List Piece → List String × List Piece
  | .token (.ident name) :: rest =>
    if Nth.lower name == "from" || wideKeywords.contains (Nth.lower name) then
      ([], .token (.ident name) :: rest)
    else
      let (names, rest) := composedNames rest
      (name :: names, rest)
  | rest => ([], rest)

/-- Composed classes, and where they are looked up. -/
def composes? (pieces : List Piece) : Option Value :=
  let (names, rest) := composedNames (Piece.compact pieces)
  if names.isEmpty then none
  else
    match rest with
    | [] => some (.composes names .sheet)
    | [.token (.ident word), .token (.str path)] =>
      if Nth.lower word == "from" then some (.composes names (.file path)) else none
    | [.token (.ident word), .token (.ident source)] =>
      if Nth.lower word == "from" && Nth.lower source == "global" then
        some (.composes names .global)
      else none
    | _ => none

/-- The value that a known property takes from pieces, if they fit. -/
def fitting? (property : String) (pieces : List Piece) : Option Value :=
  match property with
  | "composes" => composes? pieces
  | "animation-name" => animations? pieces
  | "font-family" => families? pieces
  | "margin" => (Item.ofPieces? pieces).bind (sides? true)
  | "padding" => (Item.ofPieces? pieces).bind (sides? false)
  | property =>
    if colorProperties.contains property then do
      let items ← Item.ofPieces? pieces
      match items.filter fun item => !item.isBlank with
      | [item] =>
        match colored item with
        | .color shade => some (.items [.color shade])
        | _ => none
      | _ => none
    else if colorfulProperties.contains property then
      (Item.ofPieces? pieces).map fun items => .items (items.map colored)
    else if lengthProperties.contains property then
      (Item.ofPieces? pieces).map fun items => .items (items.map unitless)
    else if keywordProperties.contains property then do
      let words ← (Piece.compact pieces).mapM fun piece =>
        match piece with
        | .token (.ident word) => some (Item.token (.ident (Nth.lower word)))
        | _ => none
      if words.isEmpty then none else some (.items (List.intersperse (.token (.blank " ")) words))
    else none

/-- Reads a value. A custom property takes any items; another property takes what fits it, and
else what is written. -/
def ofPieces? (property : String) (pieces : List Piece) : Option Value :=
  if property.startsWith "--" then (Item.ofPieces? pieces).map .items
  else
    match fitting? property pieces with
    | some value => some value
    | none => (Item.ofPieces? pieces).map .unfit

/-- The names of animations in their written form. -/
def renderAnimation (style : Style) : AnimationName → String
  | .none => "none"
  | .named name => style.renderLocal name
  | .quoted name =>
    if Nth.lower name == "none" || wideKeywords.contains (Nth.lower name) then Ident.quote name
    else style.renderLocal name

/-- The fewest sides that tell all four. -/
def shortSides (top right bottom left : Item) : List Item :=
  if left = right then
    if top = bottom then if top = right then [top] else [top, right]
    else [top, right, bottom]
  else [top, right, bottom, left]

/-- The written form of a value. -/
def render (style : Style) : Value → String
  | .items list | .unfit list => Item.render style.compact list
  | .sides top right bottom left =>
    String.intercalate " "
      ((shortSides top right bottom left).map fun side => Item.render style.compact [side])
  | .composes names source =>
    String.intercalate " " (names.map Ident.render) ++
      match source with
      | .sheet => ""
      | .global => " from global"
      | .file path => " from " ++ Ident.quote path
  | .animations names => String.intercalate style.comma (names.map (renderAnimation style))

/-- The names that writing a value makes local. -/
def locals : Value → List String
  | .animations names =>
    names.filterMap fun name =>
      match name with
      | .none => none
      | .named name => some name
      | .quoted name =>
        if Nth.lower name == "none" || wideKeywords.contains (Nth.lower name) then none
        else some name
  | _ => []

end Value

namespace Declaration

/-- Reads a declaration, after its name, from the pieces up to its end; tells whether it is
important. -/
def read (name : String) (pieces : List Piece) : Option (Declaration × Bool) :=
  match Piece.skip pieces with
  | .token .colon :: rest =>
    let custom := name.startsWith "--"
    let property := if custom then name else Nth.lower name
    let inValue (piece : Piece) : Bool :=
      match piece with
      | .token (.delim '!') => false
      | .block .curly _ => custom
      | _ => true
    let value := rest.takeWhile inValue
    match Value.ofPieces? property value, Piece.compact (rest.dropWhile inValue) with
    | some value, [] => some (⟨property, value⟩, false)
    | some value, [.token (.delim '!'), .token (.ident word)] =>
      if Nth.lower word == "important" then some (⟨property, value⟩, true) else none
    | _, _ => none
  | _ => none

/-- The written form of a declaration. -/
def render (style : Style) (important : Bool) (declaration : Declaration) : String :=
  Ident.render declaration.property ++ ":" ++ style.gap ++ declaration.value.render style ++
    (if important then style.gap ++ "!important" else "")

end Declaration

end StyleGraph.Css
