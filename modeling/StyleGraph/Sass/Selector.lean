import StyleGraph.Sass.Value
import StyleGraph.Text.Blank
import StyleGraph.Text.Cut

/-!
# Selectors of Sass

A selector is a chain of compounds and combinators. A compound that begins with `&` stands for the
selectors of the rule around it, and a chain without one goes below them.
-/

set_option autoImplicit false

namespace StyleGraph.Sass

/-- A part of a selector. -/
inductive Part
  | compound (text : String)
  /-- The selectors of the rule around, with what follows `&`. -/
  | parent (suffix : String)
  | combinator (text : String)
  deriving DecidableEq, Repr, Inhabited

/-- A selector, and whether it stands on a new line of its list. -/
structure Selector where
  parts : List Part
  ownLine : Bool := false
  deriving DecidableEq, Repr, Inhabited

namespace Selector

/-- The written form of a part. -/
def partText : Part → String
  | .compound text => text
  | .parent suffix => "&" ++ suffix
  | .combinator text => text

/-- The written form of a selector. -/
def text (selector : Selector) : String :=
  String.intercalate " " (selector.parts.map partText)

/-- The written form of a list of selectors. -/
def listText : List Selector → String
  | [] => ""
  | first :: rest =>
    first.text ++ String.join (rest.map fun selector =>
      (if selector.ownLine then ",\n" else ", ") ++ selector.text)

/-- Whether a selector names the selectors around. -/
def hasParent (selector : Selector) : Bool :=
  selector.parts.any fun part => match part with
    | .parent _ => true
    | _ => false

/-- Adds a text to the last compound. -/
def withSuffix (parts : List Part) (suffix : String) : List Part :=
  match parts.getLast? with
  | some (.compound text) => parts.dropLast ++ [.compound (text ++ suffix)]
  | _ => parts

/-- A selector inside a rule with another one. -/
def inside (parent selector : Selector) : Selector :=
  if selector.hasParent then
    { parts := selector.parts.flatMap fun part => match part with
        | .parent suffix => withSuffix parent.parts suffix
        | part => [part]
      ownLine := selector.ownLine || parent.ownLine }
  else { parts := parent.parts ++ selector.parts, ownLine := selector.ownLine || parent.ownLine }

/-- The selectors of a rule inside a rule with others: all those for the first of the others come
first. Without a rule around no selector can name its selectors. -/
def resolve (parents : Option (List Selector)) (selectors : List Selector) :
    Except Refusal (List Selector) :=
  match parents with
  | none => if selectors.any hasParent then .error .malformed else .ok selectors
  | some parents => .ok (parents.flatMap fun parent => selectors.map (inside parent))

/-! ## Reading -/

/-- A text up to its closing bracket, and what follows. `depth` is the number of brackets of the
kind that are open. -/
def takeBracket (opening closing : Char) : Nat → List Char → Option (List Char × List Char)
  | _, [] => none
  | depth, c :: rest =>
    if c = closing then
      match depth with
      | 0 => some ([c], rest)
      | depth + 1 => (takeBracket opening closing depth rest).map fun (part, rest) => (c :: part, rest)
    else
      let depth := if c = opening then depth + 1 else depth
      (takeBracket opening closing depth rest).map fun (part, rest) => (c :: part, rest)

/-- One simple selector, and what follows it. -/
def readSimple? (cs : List Char) : Option (List Char × List Char) :=
  let named (mark : List Char) (rest : List Char) : Option (List Char × List Char) :=
    (readName? rest).map fun (name, rest) => (mark ++ name.toList, rest)
  let pseudo (mark : List Char) (rest : List Char) : Option (List Char × List Char) := do
    let (name, rest) ← named mark rest
    match rest with
    | '(' :: rest => do
      let (args, rest) ← takeBracket '(' ')' 0 rest
      some (name ++ '(' :: Text.trim args.dropLast ++ [')'], rest)
    | rest => some (name, rest)
  match cs with
  | '*' :: rest => some (['*'], rest)
  | '.' :: rest => named ['.'] rest
  | '#' :: rest => named ['#'] rest
  | '%' :: rest => named ['%'] rest
  | ':' :: ':' :: rest => pseudo [':', ':'] rest
  | ':' :: rest => pseudo [':'] rest
  | '[' :: rest => do
    let (body, rest) ← takeBracket '[' ']' 0 rest
    some ('[' :: Text.trim body.dropLast ++ [']'], rest)
  | cs => named [] cs

/-- A compound, and what follows it. `fuel` bounds the number of simple selectors. -/
def readCompound? : Nat → List Char → List Char → Option (List Char × List Char)
  | 0, _, _ => none
  | fuel + 1, read, cs =>
    let isEnd := match cs with
      | [] => true
      | c :: _ => isSpace c || c = '>' || c = '+' || c = '~'
    if isEnd then if read.isEmpty then none else some (read, cs)
    else do
      let (simple, rest) ← readSimple? cs
      readCompound? fuel (read ++ simple) rest

/-- The parts of a selector. `fuel` bounds their number. -/
def readParts? : Nat → List Char → Option (List Part)
  | 0, _ => none
  | fuel + 1, cs =>
    match skipBlanks cs with
    | [] => some []
    | '&' :: rest =>
      let suffix := rest.takeWhile isNameChar
      let rest := rest.drop suffix.length
      let more : Option (List Char × List Char) :=
        match rest with
        | [] => some ([], [])
        | c :: _ =>
          if isSpace c || c = '>' || c = '+' || c = '~' then some ([], rest)
          else readCompound? (rest.length + 1) [] rest
      more.bind fun (more, rest) =>
        (readParts? fuel rest).map (.parent (String.ofList (suffix ++ more)) :: ·)
    | c :: rest =>
      if c = '>' || c = '+' || c = '~' then
        (readParts? fuel rest).map (.combinator (String.singleton c) :: ·)
      else do
        let (compound, rest) ← readCompound? (rest.length + 2) [] (c :: rest)
        (readParts? fuel rest).map (.compound (String.ofList compound) :: ·)

/-- Pieces between commas that stand in no bracket. `depth` is the number of open brackets. -/
def cutCommas (depth : Nat) : List Char → List (List Char)
  | [] => [[]]
  | c :: rest =>
    if c = ',' && depth = 0 then [] :: cutCommas 0 rest
    else
      let depth :=
        if c = '(' || c = '[' then depth + 1
        else if c = ')' || c = ']' then depth - 1
        else depth
      match cutCommas depth rest with
      | [] => [[c]]
      | piece :: pieces => (c :: piece) :: pieces

/-- The selectors that a text lists. -/
def listOf? (cs : List Char) : Option (List Selector) :=
  let pieces := cutCommas 0 cs
  (pieces.zip (List.range pieces.length)).mapM fun (piece, index) => do
    let parts ← readParts? (piece.length + 1) piece
    if parts.isEmpty then none
    else some { parts, ownLine := index ≠ 0 && (piece.takeWhile isSpace).contains '\n' }

end Selector

end StyleGraph.Sass
