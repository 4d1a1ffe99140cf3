/-!
# Cutting text

Cutting a text at a separator character, at a known beginning or at a known end. Pieces never
overlap, and putting the separator back between them gives the text again.
-/

set_option autoImplicit false

namespace StyleGraph.Text

/-- The part before the first `sep` and, if there is one, the part after it. -/
def cutFirst (sep : Char) : List Char → List Char × Option (List Char)
  | [] => ([], none)
  | c :: rest =>
    if c = sep then ([], some rest)
    else
      let (before, after) := cutFirst sep rest
      (c :: before, after)

/-- All pieces between separators: one more than there are separators. -/
def cutAll (sep : Char) : List Char → List (List Char)
  | [] => [[]]
  | c :: rest =>
    if c = sep then [] :: cutAll sep rest
    else
      match cutAll sep rest with
      | [] => [[c]]
      | piece :: pieces => (c :: piece) :: pieces

/-- What follows `start`, if the text begins with it. -/
def stripStart? : List Char → List Char → Option (List Char)
  | [], cs => some cs
  | _ :: _, [] => none
  | p :: ps, c :: cs => if p = c then stripStart? ps cs else none

/-- What precedes `tail`, if the text ends with it. -/
def stripEnd? (tail cs : List Char) : Option (List Char) :=
  (stripStart? tail.reverse cs.reverse).map List.reverse

/-- Whether the text begins with `start`. -/
def startsWith (start cs : List Char) : Bool := (stripStart? start cs).isSome

/-- Whether the text ends with `tail`. -/
def endsWith (tail cs : List Char) : Bool := (stripEnd? tail cs).isSome

/-- The part before the first `?`, and the rest from that `?` on. -/
def cutQuery (cs : List Char) : List Char × List Char :=
  (cs.takeWhile (· != '?'), cs.dropWhile (· != '?'))

/-- The parts up to and after the last `sep`; without one the first part is empty. -/
def cutAfterLast (sep : Char) (cs : List Char) : List Char × List Char :=
  let tail := cs.reverse.takeWhile (· != sep)
  let lead := cs.reverse.dropWhile (· != sep)
  (lead.reverse, tail.reverse)

/-- The texts one after the other, with `sep` between neighbours. -/
def joinWith (sep : List Char) : List (List Char) → List Char
  | [] => []
  | [piece] => piece
  | piece :: pieces => piece ++ sep ++ joinWith sep pieces

/-- Puts `replacement` in place of every occurrence of `target`; occurrences are found from the left
and do not overlap. -/
def replaceAll (target replacement : List Char) (cs : List Char) : List Char :=
  if target.isEmpty then cs else go cs.length cs
where
  go : Nat → List Char → List Char
    | 0, cs => cs
    | _, [] => []
    | fuel + 1, c :: rest =>
      match stripStart? target (c :: rest) with
      | some after => replacement ++ go fuel after
      | none => c :: go fuel rest

/-- Whether `part` occurs somewhere in the text. -/
def contains (part : List Char) : List Char → Bool
  | [] => part.isEmpty
  | c :: rest => startsWith part (c :: rest) || contains part rest

/-- Lines without their line ends; a line feed ends a line, a carriage return before it goes too,
and the text after the last line feed is a line only if it is not empty. -/
def lines (cs : List Char) : List (List Char) :=
  let pieces := cutAll '\n' cs
  let strip (line : List Char) := ((stripEnd? ['\r'] line).getD line)
  match pieces.reverse with
  | [] :: before => before.reverse.map strip
  | last :: before => before.reverse.map strip ++ [last]
  | [] => []

end StyleGraph.Text
