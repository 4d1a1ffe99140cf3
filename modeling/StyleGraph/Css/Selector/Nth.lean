import StyleGraph.Css.Token
import StyleGraph.Css.Tokenizer

/-!
# Reading positions

The microsyntax `step · n + offset`. Names, dimensions and numbers share its parts in many ways:
`2n+1` is a dimension and a signed number, `n-1` is one name, and `2n - 1` has blanks around its
sign.
-/

set_option autoImplicit false

namespace StyleGraph.Css.Nth

/-- A name in lower case. -/
def lower (name : String) : String := String.ofList (name.toList.map Char.toLower)

/-- The offset of a name such as `n-3`, if it is one. -/
def offsetOfName? (name : String) : Option Int :=
  match name.toList with
  | n :: '-' :: digits =>
    if (n == 'n' || n == 'N') && !digits.isEmpty && digits.all Char.isDigit then
      some (-(Tokenizer.natOf digits : Nat))
    else none
  | _ => none

/-- Reads a number without a sign, whose sign stands before it. -/
def readUnsigned (step sign : Int) (pieces : List Piece) : Option ((Int × Int) × List Piece) :=
  match Piece.skip pieces with
  | .token (.number value false true) :: rest => some ((step, sign * value.toInt), rest)
  | _ => none

/-- Reads an offset after `n`, if there is one. -/
def readOffset (step : Int) (pieces : List Piece) : Option ((Int × Int) × List Piece) :=
  match Piece.skip pieces with
  | .token (.delim '+') :: rest => readUnsigned step 1 rest
  | .token (.delim '-') :: rest => readUnsigned step (-1) rest
  | .token (.number value true true) :: rest => some ((step, value.toInt), rest)
  | _ => some ((step, 0), pieces)

/-- Reads what follows a step: the name `n`, `n-`, or one with its offset in it. -/
def readName (step : Int) (name : String) (rest : List Piece) :
    Option ((Int × Int) × List Piece) :=
  match lower name with
  | "n" => readOffset step rest
  | "n-" => readUnsigned step (-1) rest
  | name => (offsetOfName? name).map fun offset => ((step, offset), rest)

/-- Reads a position and gives its step and offset. -/
def read (pieces : List Piece) : Option ((Int × Int) × List Piece) :=
  match Piece.skip pieces with
  | .token (.number value _ true) :: rest => some ((0, value.toInt), rest)
  | .token (.dimension value unit _ true) :: rest => readName value.toInt unit rest
  | .token (.ident name) :: rest =>
    match lower name with
    | "even" => some ((2, 0), rest)
    | "odd" => some ((2, 1), rest)
    | lowered =>
      match lowered.toList with
      | '-' :: name => readName (-1) (String.ofList name) rest
      | _ => readName 1 lowered rest
  | .token (.delim '+') :: .token (.ident name) :: rest => readName 1 name rest
  | _ => none

end StyleGraph.Css.Nth
