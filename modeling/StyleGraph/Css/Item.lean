import StyleGraph.Css.Color
import StyleGraph.Css.Ident
import StyleGraph.Css.Token

/-!
# Value items

A value whose grammar is not interpreted, as a flat list of items. Brackets and functions stand as
an opening and a closing item, so a list is compared item by item. Runs of blanks and comments are
one blank, and a blank next to a delimiter is not kept at all; writing puts it back where the
spacious form wants one.
-/

set_option autoImplicit false

namespace StyleGraph.Css

/-- An item of an uninterpreted value. -/
inductive Item
  /-- A token that stands for itself. -/
  | token (token : Token)
  | color (color : Color)
  | url (address : String)
  /-- A name that begins with two hyphens. -/
  | dashed (name : String)
  /-- The opening of a function. -/
  | function (name : String)
  /-- The opening of a reference to a custom property, and whether a fallback follows. -/
  | variable (name : String) (fallback : Bool)
  | opening (bracket : Bracket)
  | closing (bracket : Bracket)
  deriving DecidableEq, Repr, Inhabited

namespace Item

/-- Whether an item is a blank. -/
def isBlank : Item → Bool
  | .token (.blank _) => true
  | _ => false

/-- Drops a blank at each end, unless it is all there is. -/
def trim (items : List Item) : List Item :=
  if items.length < 2 then items
  else
    let items := if items.head?.any isBlank then items.tail else items
    if items.getLast?.any isBlank then items.dropLast else items

/-- What was read last, as far as blanks depend on it. -/
inductive After
  | other
  | blank
  /-- A delimiter or a closing bracket, after which no blank is kept. -/
  | delimiter
  deriving DecidableEq, Repr, Inhabited

mutual

/-- The items of pieces, in reverse after those read before; faults are refused. -/
def read (acc : List Item) (after : After) : List Piece → Option (List Item × After)
  | [] => some (acc, after)
  | piece :: rest =>
    match readPiece acc after piece with
    | some (acc, after) => read acc after rest
    | none => none

/-- The items of one piece. -/
def readPiece (acc : List Item) (after : After) : Piece → Option (List Item × After)
  | .token leaf =>
    match leaf with
    | .blank _ | .comment _ =>
      if after = .delimiter then some (acc, after)
      else if after = .blank then some (acc, after)
      else some (.token (.blank " ") :: acc, .blank)
    | .url address => some (.url address :: acc, .other)
    | .hash text _ =>
      match Color.ofHex? text with
      | some shade => some (.color shade :: acc, .other)
      | none => some (.token leaf :: acc, .other)
    | .ident name =>
      if name.startsWith "--" then some (.dashed name :: acc, .other)
      else some (.token leaf :: acc, .other)
    | .delim _ | .comma =>
      some (.token leaf :: (if after = .blank then acc.tail else acc), .delimiter)
    | leaf => if leaf.isFault then none else some (.token leaf :: acc, .other)
  | .function name content =>
    match Color.ofFunction? name content with
    | some shade => some (.color shade :: acc, .other)
    | none =>
      match name, Piece.strip content with
      | "url", [.token (.str address)] => some (.url address :: acc, .other)
      | "var", _ => readVariable acc content
      | name, _ =>
        match read [] .other content with
        | some (inner, _) =>
          some (.closing .paren :: (trim inner.reverse).reverse ++ .function name :: acc, .delimiter)
        | none => none
  | .block bracket content =>
    match read (.opening bracket :: acc) .other content with
    | some (acc, _) => some (.closing bracket :: acc, .delimiter)
    | none => none

/-- The items of a reference to a custom property. -/
def readVariable (acc : List Item) (content : List Piece) : Option (List Item × After) :=
  match content with
  | [] => none
  | .token leaf :: rest =>
    if leaf.isSpace then readVariable acc rest
    else
      match leaf with
      | .ident name =>
        if name.startsWith "--" then readFallback (fun has => .variable name has :: acc) rest
        else none
      | _ => none
  | _ => none

/-- The items of a reference's fallback, up to the closing bracket; `opened` puts the opening
before. -/
def readFallback (opened : Bool → List Item) (content : List Piece) :
    Option (List Item × After) :=
  match content with
  | [] => some (.closing .paren :: opened false, .delimiter)
  | .token leaf :: rest =>
    if leaf.isSpace then readFallback opened rest
    else
      match leaf with
      | .comma =>
        match read [] .other rest with
        | some (inner, _) =>
          some (.closing .paren :: (trim inner.reverse).reverse ++ opened true, .delimiter)
        | none => none
      | _ => none
  | _ => none

end

/-- The items of a whole value. -/
def ofPieces? (pieces : List Piece) : Option (List Item) :=
  (read [] .other pieces).map fun (acc, _) => trim acc.reverse

/-- A delimiter with blanks around it in the spacious form. -/
def spaced (compact : Bool) (c : Char) (before : Bool) : String :=
  if compact then String.singleton c
  else (if before then " " else "") ++ String.singleton c ++ " "

/-- A token in its written form. -/
def renderToken : Token → String
  | .ident name => Ident.render name
  | .atKeyword name => "@" ++ Ident.render name
  | .hash text isName => "#" ++ (if isName then Ident.render text else Ident.renderRest text)
  | .str text => Ident.quote text
  | .url address => Ident.url true address
  | .delim c => String.singleton c
  | .number value _ _ => value.render
  | .percentage value _ => value.render ++ "%"
  | .dimension value unit _ _ => value.render ++ Ident.renderRest unit
  | .blank text => text
  | .comment text => "/*" ++ text ++ "*/"
  | .colon => ":"
  | .semicolon => ";"
  | .comma => ","
  | .matcher c => String.ofList [c, '=']
  | .commentOpen => "<!--"
  | .commentClose => "-->"
  | .badUrl => "url("
  | .badString => "\""
  | .stray bracket => String.singleton bracket.closing

/-- The blank that the spacious form wants after a closing bracket. -/
def gapAfter (compact : Bool) (rest : List Item) : Bool :=
  !compact &&
    match rest with
    | [] => false
    | .closing _ :: _ => false
    | .token .comma :: _ => false
    | _ => true

/-- Writes items; `blank` tells whether a blank stands right before. -/
def renderFrom (compact : Bool) (blank : Bool) : List Item → String
  | [] => ""
  | item :: rest =>
    match item with
    | .token (.delim c) =>
      let text :=
        if c == '+' || c == '-' then String.ofList [' ', c, ' ']
        else spaced compact c (!blank && (c == '/' || c == '*'))
      text ++ renderFrom compact true rest
    | .token .comma => spaced compact ',' false ++ renderFrom compact true rest
    | .token leaf => renderToken leaf ++ renderFrom compact (isBlank item) rest
    | .color shade => shade.render ++ renderFrom compact false rest
    | .url address => Ident.url compact address ++ renderFrom compact false rest
    | .dashed name => Ident.render name ++ renderFrom compact false rest
    | .function name => Ident.render name ++ "(" ++ renderFrom compact false rest
    | .variable name fallback =>
      "var(" ++ Ident.render name ++ (if fallback then spaced compact ',' false else "") ++
        renderFrom compact false rest
    | .opening bracket => String.singleton bracket.opening ++ renderFrom compact false rest
    | .closing bracket =>
      let gap := gapAfter compact rest
      String.singleton bracket.closing ++ (if gap then " " else "") ++ renderFrom compact gap rest

/-- The written form of a value. -/
def render (compact : Bool) (items : List Item) : String := renderFrom compact false items

mutual

/-- The items of pieces exactly as they stand, in reverse after those before. -/
def readRaw (acc : List Item) : List Piece → Option (List Item)
  | [] => some acc
  | piece :: rest =>
    match readRawPiece acc piece with
    | some acc => readRaw acc rest
    | none => none

/-- The items of one piece exactly as it stands. -/
def readRawPiece (acc : List Item) : Piece → Option (List Item)
  | .token leaf => if leaf.isFault then none else some (.token leaf :: acc)
  | .function name content =>
    match readRaw (.function name :: acc) content with
    | some acc => some (.closing .paren :: acc)
    | none => none
  | .block bracket content =>
    match readRaw (.opening bracket :: acc) content with
    | some acc => some (.closing bracket :: acc)
    | none => none

end

/-- The written form of an item that is kept as it stands. -/
def renderRawItem : Item → String
  | .token leaf => renderToken leaf
  | .color shade => shade.render
  | .url address => Ident.url true address
  | .dashed name => Ident.render name
  | .function name => Ident.render name ++ "("
  | .variable name _ => "var(" ++ Ident.render name
  | .opening bracket => String.singleton bracket.opening
  | .closing bracket => String.singleton bracket.closing

/-- The written form of items kept as they stand. -/
def renderRaw (items : List Item) : String := String.join (items.map renderRawItem)

end Item

end StyleGraph.Css
