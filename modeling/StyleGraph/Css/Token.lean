import StyleGraph.Css.Decimal

/-!
# Tokens

The tokens of a style sheet, and their grouping by brackets. Every opening bracket and every
function has its content inside it; the end of the text closes what is open. A closing bracket
that closes nothing stays as a faulty token of its own.
-/

set_option autoImplicit false

namespace StyleGraph.Css

/-- A kind of bracket. -/
inductive Bracket
  | paren
  | square
  | curly
  deriving DecidableEq, Repr, Inhabited

namespace Bracket

/-- The opening character. -/
def opening : Bracket → Char
  | .paren => '('
  | .square => '['
  | .curly => '\x7b'

/-- The closing character. -/
def closing : Bracket → Char
  | .paren => ')'
  | .square => ']'
  | .curly => '\x7d'

end Bracket

/-- A token without inner structure. -/
inductive Token
  | ident (name : String)
  | atKeyword (name : String)
  /-- A hash; `isName` tells whether its text is a name. -/
  | hash (text : String) (isName : Bool)
  | str (text : String)
  | url (address : String)
  | delim (c : Char)
  /-- A number; `signed` tells whether it is written with a sign. -/
  | number (value : Decimal) (signed : Bool) (integer : Bool)
  | percentage (value : Decimal) (signed : Bool)
  | dimension (value : Decimal) (unit : String) (signed : Bool) (integer : Bool)
  /-- A run of blanks, as it is written. -/
  | blank (text : String)
  | comment (text : String)
  | colon
  | semicolon
  | comma
  /-- An operator of attribute selectors, such as `~=`. -/
  | matcher (c : Char)
  /-- `<!--`. -/
  | commentOpen
  /-- `-->`. -/
  | commentClose
  | badUrl
  | badString
  /-- A closing bracket that closes nothing. -/
  | stray (bracket : Bracket)
  deriving DecidableEq, Repr, Inhabited

namespace Token

/-- Whether a token is a fault wherever it stands. -/
def isFault : Token → Bool
  | .badUrl | .badString | .stray _ => true
  | _ => false

/-- Whether a token separates others without a meaning of its own. -/
def isSpace : Token → Bool
  | .blank _ | .comment _ => true
  | _ => false

end Token

/-- A token, or a bracketed group of pieces. -/
inductive Piece
  | token (token : Token)
  | function (name : String) (content : List Piece)
  | block (bracket : Bracket) (content : List Piece)
  deriving Repr, Inhabited

mutual

/-- How deep brackets are nested in a piece. -/
def Piece.depth : Piece → Nat
  | .token _ => 0
  | .function _ content => Piece.depthOfList content + 1
  | .block _ content => Piece.depthOfList content + 1

/-- How deep brackets are nested in pieces. -/
def Piece.depthOfList : List Piece → Nat
  | [] => 0
  | piece :: rest => max piece.depth (Piece.depthOfList rest)

end

namespace Piece

/-- Whether a piece is a blank or a comment. -/
def isSpace : Piece → Bool
  | .token leaf => leaf.isSpace
  | _ => false

/-- Whether a piece is a given single character. -/
def isDelim (c : Char) : Piece → Bool
  | .token (.delim d) => c == d
  | _ => false

/-- Whether a piece is a comma. -/
def isComma : Piece → Bool
  | .token .comma => true
  | _ => false

/-- Drops leading blanks and comments. -/
def skip (pieces : List Piece) : List Piece := pieces.dropWhile isSpace

/-- Drops blanks and comments at both ends. -/
def strip (pieces : List Piece) : List Piece := (skip (skip pieces).reverse).reverse

/-- Drops all blanks and comments. -/
def compact (pieces : List Piece) : List Piece := pieces.filter fun piece => !piece.isSpace

/-- The lists of pieces between those that satisfy `p`. -/
def splitAt (p : Piece → Bool) : List Piece → List (List Piece)
  | [] => [[]]
  | piece :: rest =>
    if p piece then [] :: splitAt p rest
    else
      match splitAt p rest with
      | [] => [[piece]]
      | first :: more => (piece :: first) :: more

end Piece

end StyleGraph.Css
