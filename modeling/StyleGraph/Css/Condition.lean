import StyleGraph.Css.Declaration

/-!
# Conditions of groups

The conditions under which a group of rules applies: media queries, conditions on the size of a
container, and conditions on what is supported. `not`, `and` and `or` combine them; `and` and `or`
are never mixed without brackets. A bound written as `min-` or `max-` is the same as one written
as a comparison.
-/

set_option autoImplicit false

namespace StyleGraph.Css

/-- A way to compare. -/
inductive Comparison
  | equal
  | greater
  | greaterEqual
  | less
  | lessEqual
  deriving DecidableEq, Repr, Inhabited

namespace Comparison

/-- The sign. -/
def sign : Comparison → String
  | .equal => "="
  | .greater => ">"
  | .greaterEqual => ">="
  | .less => "<"
  | .lessEqual => "<="

/-- The comparison with its sides exchanged. -/
def flip : Comparison → Comparison
  | .equal => .equal
  | .greater => .less
  | .greaterEqual => .lessEqual
  | .less => .greater
  | .lessEqual => .greaterEqual

/-- The written form. -/
def render (style : Style) (comparison : Comparison) : String :=
  style.gap ++ comparison.sign ++ style.gap

/-- Reads a comparison. -/
def read : List Piece → Option (Comparison × List Piece)
  | .token (.delim '>') :: .token (.delim '=') :: rest => some (.greaterEqual, rest)
  | .token (.delim '<') :: .token (.delim '=') :: rest => some (.lessEqual, rest)
  | .token (.delim '>') :: rest => some (.greater, rest)
  | .token (.delim '<') :: rest => some (.less, rest)
  | .token (.delim '=') :: rest => some (.equal, rest)
  | _ => none

end Comparison

/-- A single test. -/
inductive Test
  /-- A feature is there. -/
  | boolean (name : String)
  | plain (name : String) (value : List Item)
  | range (name : String) (comparison : Comparison) (value : List Item)
  /-- A feature lies between two values. -/
  | interval (start : List Item) (first : Comparison) (name : String) (second : Comparison)
    (stop : List Item)
  /-- A declaration is supported. -/
  | declaration (property : String) (value : List Item)
  /-- A function of uninterpreted content. -/
  | function (name : String) (content : List Item)
  deriving DecidableEq, Repr, Inhabited

/-- A condition. -/
inductive Condition
  | test (test : Test)
  | not (inner : Condition)
  | and (left right : Condition)
  | or (left right : Condition)
  deriving DecidableEq, Repr, Inhabited

namespace Test

/-- The features that have an order. -/
def ranged : List String :=
  ["width", "height", "device-width", "device-height", "aspect-ratio", "device-aspect-ratio",
   "resolution", "color", "color-index", "monochrome", "inline-size", "block-size"]

/-- A feature written with `min-` or `max-` as a comparison. -/
def bound? (name : String) : Option (String × Comparison) :=
  match name.toList with
  | 'm' :: 'i' :: 'n' :: '-' :: rest =>
    if ranged.contains (String.ofList rest) then some (String.ofList rest, .greaterEqual) else none
  | 'm' :: 'a' :: 'x' :: '-' :: rest =>
    if ranged.contains (String.ofList rest) then some (String.ofList rest, .lessEqual) else none
  | _ => none

/-- A feature's name, known ones in lower case. -/
def featureName (name : String) : String :=
  if name.startsWith "--" then name else Nth.lower name

/-- Whether a piece begins a comparison. -/
def isSign (piece : Piece) : Bool :=
  piece.isDelim '<' || piece.isDelim '>' || piece.isDelim '='

/-- The value written by pieces. -/
def value? (pieces : List Piece) : Option (List Item) :=
  match Piece.strip pieces with
  | [] => none
  | pieces => Item.ofPieces? pieces

/-- Reads a feature between brackets. -/
def readFeature (content : List Piece) : Option Test :=
  let pieces := Piece.strip content
  let named : Option Test :=
    match pieces with
    | .token (.ident name) :: rest =>
      let name := featureName name
      match Piece.skip rest with
      | [] => some (.boolean name)
      | .token .colon :: rest => do
        let value ← value? rest
        match bound? name with
        | some (name, comparison) => some (.range name comparison value)
        | none => some (.plain name value)
      | rest => do
        let (comparison, rest) ← Comparison.read rest
        let value ← value? rest
        some (.range name comparison value)
    | _ => none
  match named with
  | some test => some test
  | none => do
    let start ← value? (pieces.takeWhile fun piece => !isSign piece)
    let (first, rest) ← Comparison.read (pieces.dropWhile fun piece => !isSign piece)
    match Piece.skip rest with
    | .token (.ident name) :: rest =>
      match Piece.skip rest with
      | [] => some (.range (featureName name) first.flip start)
      | rest => do
        let (second, rest) ← Comparison.read rest
        let stop ← value? rest
        some (.interval start first (featureName name) second stop)
    | _ => none

/-- Reads a declaration between brackets. -/
def readDeclaration (content : List Piece) : Option Test :=
  match Piece.strip content with
  | .token (.ident name) :: rest =>
    match Piece.skip rest with
    | .token .colon :: rest =>
      let property := if name.startsWith "--" then name else Nth.lower name
      (Item.readRaw [] (Piece.strip rest)).map fun items => .declaration property items.reverse
    | _ => none
  | _ => none

/-- The written form. -/
def render (style : Style) : Test → String
  | .boolean name => "(" ++ Ident.render name ++ ")"
  | .plain name value =>
    "(" ++ Ident.render name ++ ":" ++ style.gap ++ Item.render style.compact value ++ ")"
  | .range name comparison value =>
    "(" ++ Ident.render name ++ comparison.render style ++ Item.render style.compact value ++ ")"
  | .interval start first name second stop =>
    "(" ++ Item.render style.compact start ++ first.render style ++ Ident.render name ++
      second.render style ++ Item.render style.compact stop ++ ")"
  | .declaration property value =>
    "(" ++ Ident.render property ++ ":" ++ style.gap ++ Item.renderRaw value ++ ")"
  | .function name content => Ident.render name ++ "(" ++ Item.renderRaw content ++ ")"

end Test

namespace Condition

/-- Whether a piece is a given word. -/
def isWord (word : String) : Piece → Bool
  | .token (.ident name) => Nth.lower name == word
  | _ => false

/-- Reads what follows a condition: nothing, or a chain of one kind of connective. -/
def readChain (operand : Piece → Option Condition) (word : String)
    (join : Condition → Condition → Condition) : Condition → List Piece → Option Condition
  | first, [] => some first
  | first, connective :: piece :: rest =>
    if isWord word connective then
      match operand piece with
      | some second => (readChain operand word join second rest).map (join first)
      | none => none
    else none
  | _, [_] => none

/-- Reads a condition from pieces without blanks, given the reader of its operands. -/
def readWith (operand : Piece → Option Condition) (allowsOr : Bool) (pieces : List Piece) :
    Option Condition :=
  match pieces with
  | [] => none
  | first :: rest =>
    if isWord "not" first then
      match rest with
      | [piece] => (operand piece).map .not
      | _ => none
    else
      match operand first with
      | none => none
      | some condition =>
        match rest with
        | [] => some condition
        | connective :: _ =>
          if isWord "and" connective then readChain operand "and" .and condition rest
          else if allowsOr then readChain operand "or" .or condition rest
          else none

/-- Reads a condition on features, nested at most `depth` deep. -/
def readFeatures : Nat → Bool → List Piece → Option Condition
  | 0, _, _ => none
  | depth + 1, allowsOr, pieces =>
    let operand (piece : Piece) : Option Condition :=
      match piece with
      | .block .paren content =>
        match readFeatures depth true (Piece.compact content) with
        | some condition => some condition
        | none => (Test.readFeature content).map .test
      | .function name content =>
        (Item.readRaw [] content).map fun items => .test (.function name items.reverse)
      | _ => none
    readWith operand allowsOr pieces

/-- Reads a condition on what is supported, nested at most `depth` deep. -/
def readSupports : Nat → List Piece → Option Condition
  | 0, _ => none
  | depth + 1, pieces =>
    let operand (piece : Piece) : Option Condition :=
      match piece with
      | .block .paren content =>
        match readSupports depth (Piece.compact content) with
        | some condition => some condition
        | none => (Test.readDeclaration content).map .test
      | .function name content =>
        (Item.readRaw [] content).map fun items => .test (.function name items.reverse)
      | _ => none
    readWith operand true pieces

/-- Text in brackets if they are needed. -/
def bracketed (needed : Bool) (text : String) : String :=
  if needed then "(" ++ text ++ ")" else text

/-- Whether a condition needs brackets as a part of `and`. -/
def inAnd : Condition → Bool
  | .not _ | .or _ _ => true
  | _ => false

/-- Whether a condition needs brackets as a part of `or`. -/
def inOr : Condition → Bool
  | .not _ | .and _ _ => true
  | _ => false

/-- Whether a condition needs brackets after `not`. -/
def inNot : Condition → Bool
  | .test _ => false
  | _ => true

/-- The written form. -/
def render (style : Style) : Condition → String
  | .test single => single.render style
  | .not inner => "not " ++ bracketed inner.inNot (inner.render style)
  | .and left right =>
    bracketed left.inAnd (left.render style) ++ " and " ++
      bracketed right.inAnd (right.render style)
  | .or left right =>
    bracketed left.inOr (left.render style) ++ " or " ++ bracketed right.inOr (right.render style)

end Condition

/-- A media query. -/
structure MediaQuery where
  /-- `not` or `only`. -/
  qualifier : Option String := none
  /-- The kind of media; `all` if none is written. -/
  kind : String := "all"
  condition : Option Condition := none
  deriving DecidableEq, Repr, Inhabited

namespace MediaQuery

/-- Reads a media query. -/
def read (pieces : List Piece) : Option MediaQuery :=
  let depth := Piece.depthOfList pieces + 1
  let pieces := Piece.compact pieces
  let kind (qualifier : Option String) (pieces : List Piece) : Option MediaQuery :=
    match pieces with
    | [.token (.ident kind)] => some { qualifier, kind := Nth.lower kind }
    | .token (.ident kind) :: word :: rest =>
      if Condition.isWord "and" word then
        (Condition.readFeatures depth false rest).map fun condition =>
          { qualifier, kind := Nth.lower kind, condition := some condition }
      else none
    | _ => none
  match pieces with
  | .token (.ident word) :: .token (.ident name) :: rest =>
    if Nth.lower word == "not" then kind (some "not") (.token (.ident name) :: rest)
    else if Nth.lower word == "only" then kind (some "only") (.token (.ident name) :: rest)
    else kind none pieces
  | .token (.ident word) :: rest =>
    if Nth.lower word == "not" && !rest.isEmpty then
      (Condition.readFeatures depth true pieces).map fun condition =>
        { condition := some condition }
    else kind none pieces
  | pieces =>
    (Condition.readFeatures depth true pieces).map fun condition => { condition := some condition }

/-- Reads a list of media queries, which may be empty. -/
def readList (pieces : List Piece) : Option (List MediaQuery) :=
  if (Piece.skip pieces).isEmpty then some []
  else (Piece.splitAt Piece.isComma pieces).mapM read

/-- The written form. -/
def render (style : Style) (query : MediaQuery) : String :=
  let lead := (query.qualifier.map (· ++ " ")).getD ""
  let plain := query.kind == "all" && query.qualifier.isNone
  match query.condition with
  | none => lead ++ Ident.render query.kind
  | some condition =>
    if plain then condition.render style
    else
      let brackets := match condition with
        | .or _ _ => true
        | _ => false
      lead ++ Ident.render query.kind ++ " and " ++
        Condition.bracketed brackets (condition.render style)

end MediaQuery

end StyleGraph.Css
