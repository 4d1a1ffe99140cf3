import StyleGraph.Text.Blank
import StyleGraph.Text.Case
import StyleGraph.Text.Category

/-!
# Patterns

Regular expressions over characters, and whether one matches somewhere in a text. Matching
follows sets of positions: a pattern takes the set of positions it may begin at to the set of
positions it may end at, so no position is visited twice for the same part of a pattern.
-/

set_option autoImplicit false

namespace StyleGraph

namespace Pattern

/-- A set of characters, as a pattern writes it. -/
inductive CharSet
  /-- All characters between two, ends included. -/
  | range (low high : Char)
  /-- Decimal digits. -/
  | digit
  /-- Blank characters. -/
  | blank
  /-- Word characters. -/
  | word
  /-- Characters of a general category; without a minor letter, of all categories of a major. -/
  | category (major : Char) (minor : Option Char)
  /-- Letters, marks of letters and letter numbers. -/
  | alphabetic
  /-- Every character but those of a set. -/
  | compl (set : CharSet)
  /-- Characters of either set. -/
  | union (left right : CharSet)
  /-- Characters of both sets. -/
  | inter (left right : CharSet)
  /-- No character. -/
  | empty
  deriving DecidableEq, Repr, Inhabited

namespace CharSet

/-- All characters. -/
def all : CharSet := .range '\x00' (Char.ofNat 0x10ffff)

/-- The union of a list of sets. -/
def unions (sets : List CharSet) : CharSet := sets.foldr .union .empty

/-- The characters of one set that are not in another. -/
def diff (left right : CharSet) : CharSet := .inter left (.compl right)

/-- Membership, letter case counting. -/
def contains : CharSet → Char → Bool
  | .range low high, c => low.toNat ≤ c.toNat && c.toNat ≤ high.toNat
  | .digit, c => Text.isDecimalDigit c
  | .blank, c => Text.isBlank c
  | .word, c => Text.isWordChar c
  | .category major minor, c =>
    let category := Text.category c
    category.major = major && minor.all (· = category.minor)
  | .alphabetic, c =>
    Text.isLetter c || Text.isLetterNumber c || Text.isEnclosedLetter c
  | .compl set, c => !set.contains c
  | .union left right, c => left.contains c || right.contains c
  | .inter left right, c => left.contains c && right.contains c
  | .empty, _ => false

/-- Membership up to letter case. A complement is taken after case is disregarded. -/
def containsFolded : CharSet → Char → Bool
  | .compl set, c => !set.containsFolded c
  | .union left right, c => left.containsFolded c || right.containsFolded c
  | .inter left right, c => left.containsFolded c && right.containsFolded c
  | set, c => (Text.caseVariants c).any set.contains

end CharSet

/-- A condition on a position between characters. -/
inductive Boundary
  /-- The beginning of the text. -/
  | textStart
  /-- The end of the text. -/
  | textEnd
  /-- The beginning of a line; with `crlf` a carriage return also separates lines. -/
  | lineStart (crlf : Bool)
  /-- The end of a line. -/
  | lineEnd (crlf : Bool)
  /-- Exactly one neighbour is a word character; with `ascii` only ASCII counts. -/
  | word (ascii : Bool)
  /-- Both neighbours are word characters, or neither. -/
  | notWord (ascii : Bool)
  /-- A word begins here. -/
  | wordStart (ascii : Bool)
  /-- A word ends here. -/
  | wordEnd (ascii : Bool)
  /-- The character before is not a word character. -/
  | wordStartHalf (ascii : Bool)
  /-- The character after is not a word character. -/
  | wordEndHalf (ascii : Bool)
  deriving DecidableEq, Repr, Inhabited

/-- A pattern's structure. -/
inductive Expr
  /-- The empty text. -/
  | empty
  /-- One character of a set; with `folded` letter case is disregarded. -/
  | one (folded : Bool) (set : CharSet)
  /-- A condition on the position. -/
  | boundary (condition : Boundary)
  /-- One after the other. -/
  | seq (first second : Expr)
  /-- Either. -/
  | alt (left right : Expr)
  /-- At least `least` times, at most `most` times. -/
  | repeated (body : Expr) (least : Nat) (most : Option Nat)
  deriving DecidableEq, Repr, Inhabited

/-- Whether the character at an index is a word character. -/
def wordAt (ascii : Bool) (text : Array Char) (index : Nat) : Bool :=
  match text[index]? with
  | some c => if ascii then c.isAlphanum || c = '_' else Text.isWordChar c
  | none => false

/-- Whether the character before a position is a word character. -/
def wordBefore (ascii : Bool) (text : Array Char) (position : Nat) : Bool :=
  position > 0 && wordAt ascii text (position - 1)

/-- Whether a condition holds at a position. -/
def Boundary.holds (text : Array Char) (position : Nat) : Boundary → Bool
  | .textStart => position == 0
  | .textEnd => position == text.size
  | .lineStart crlf =>
    position == 0 || text[position - 1]? == some '\n' ||
      (crlf && text[position - 1]? == some '\r' && text[position]? != some '\n')
  | .lineEnd crlf =>
    position == text.size || (crlf && text[position]? == some '\r') ||
      (text[position]? == some '\n' &&
        !(crlf && position > 0 && text[position - 1]? == some '\r'))
  | .word ascii => wordBefore ascii text position != wordAt ascii text position
  | .notWord ascii => wordBefore ascii text position == wordAt ascii text position
  | .wordStart ascii => !wordBefore ascii text position && wordAt ascii text position
  | .wordEnd ascii => wordBefore ascii text position && !wordAt ascii text position
  | .wordStartHalf ascii => !wordBefore ascii text position
  | .wordEndHalf ascii => !wordAt ascii text position

/-- Positions of two sets, each once. -/
def merge (left right : List Nat) : List Nat :=
  left ++ right.filter fun position => !left.contains position

/-- Applies a step to a set of positions a fixed number of times. -/
def iterate (step : List Nat → List Nat) : Nat → List Nat → List Nat
  | 0, positions => positions
  | count + 1, positions =>
    if positions.isEmpty then [] else iterate step count (step positions)

/-- All positions that at most `count` steps lead to. -/
def spread (step : List Nat → List Nat) : Nat → List Nat → List Nat
  | 0, positions => positions
  | count + 1, positions =>
    let next := merge positions (step positions)
    if next.length == positions.length then positions else spread step count next

/-- The positions a pattern may end at when it begins at one of the given positions. -/
def Expr.reach (text : Array Char) : Expr → List Nat → List Nat
  | .empty => fun positions => positions
  | .one folded set => fun positions =>
    positions.filterMap fun position =>
      match text[position]? with
      | some c =>
        if (if folded then set.containsFolded c else set.contains c) then some (position + 1)
        else none
      | none => none
  | .boundary condition => fun positions => positions.filter fun p => condition.holds text p
  | .seq first second => fun positions => second.reach text (first.reach text positions)
  | .alt left right => fun positions =>
    merge (left.reach text positions) (right.reach text positions)
  | .repeated body least most => fun positions =>
    let started := iterate (body.reach text) least positions
    match most with
    | none => spread (body.reach text) (text.size + 1) started
    | some most => spread (body.reach text) (min (most - least) (text.size + 1)) started

end Pattern

/-- A pattern together with the text it was written as. -/
structure Pattern where
  /-- The written form. -/
  source : String
  /-- What it matches. -/
  expr : Pattern.Expr
  deriving DecidableEq, Repr, Inhabited

/-- Whether a pattern matches some part of a text. -/
def Pattern.isMatch (pattern : Pattern) (text : String) : Bool :=
  let chars := text.toList.toArray
  !(pattern.expr.reach chars (List.range (chars.size + 1))).isEmpty

end StyleGraph
