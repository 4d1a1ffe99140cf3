import StyleGraph.Text.Cut
import StyleGraph.Text.Percent

/-!
# File addresses

The path that a `file:` address stands for. The address may leave out its slashes or name
`localhost`; any other host has no path here. Dot segments are resolved, the query and the
fragment do not count, and percent escapes are resolved last, so an escaped slash is a slash.
-/

set_option autoImplicit false

namespace StyleGraph.Path.FileUrl

/-- Characters that end the host. -/
def endsHost (c : Char) : Bool := c == '/' || c == '\\' || c == '?' || c == '#'

/-- The two characters of a drive name, `C:` or `C|`. -/
def isDrive (piece : List Char) : Bool :=
  match piece with
  | [letter, mark] => letter.isAlpha && (mark == ':' || mark == '|')
  | _ => false

/-- A dot, written plainly or escaped, taken off a segment. -/
def stripDot? : List Char → Option (List Char)
  | '.' :: rest => some rest
  | '%' :: '2' :: 'e' :: rest => some rest
  | '%' :: '2' :: 'E' :: rest => some rest
  | _ => none

/-- A segment that stands for its own directory. -/
def isSingleDot (segment : List Char) : Bool := stripDot? segment == some []

/-- A segment that stands for the directory above. -/
def isDoubleDot (segment : List Char) : Bool := ((stripDot? segment).bind stripDot?) == some []

/-- The segments of a path, slashes of both kinds separating. -/
def segments : List Char → List (List Char)
  | [] => [[]]
  | c :: rest =>
    if c == '/' || c == '\\' then [] :: segments rest
    else
      match segments rest with
      | [] => [[c]]
      | segment :: more => (c :: segment) :: more

/-- Takes the last kept segment away, except a drive name that stands alone. -/
def shorten : List (List Char) → List (List Char)
  | [] => []
  | [segment] => if isDrive segment then [segment] else []
  | _ :: rest => rest

/-- Resolves dot segments; `kept` holds the segments so far, the last first. -/
def resolve : List (List Char) → List (List Char) → List (List Char)
  | kept, [] => kept.reverse
  | kept, [segment] =>
    if isDoubleDot segment then ([] :: shorten kept).reverse
    else if isSingleDot segment then ([] :: kept).reverse
    else (keepSegment kept segment).reverse
  | kept, segment :: more =>
    if isDoubleDot segment then resolve (shorten kept) more
    else if isSingleDot segment then resolve kept more
    else resolve (keepSegment kept segment) more
where
  keepSegment (kept : List (List Char)) (segment : List Char) : List (List Char) :=
    match kept, segment with
    | [], [letter, mark] => if isDrive [letter, mark] then [[letter, ':']] else [[letter, mark]]
    | kept, segment => segment :: kept

/-- Empty segments at the beginning do not count, unless nothing follows them. -/
def dropLeadingEmpty : List (List Char) → List (List Char)
  | [] => []
  | [segment] => [segment]
  | [] :: more => dropLeadingEmpty more
  | segments => segments

/-- The path that the part after the host stands for. -/
def pathOf (rest : List Char) : List Char :=
  let text := rest.takeWhile fun c => c != '?' && c != '#'
  let text := match text with
    | '/' :: more => more
    | '\\' :: more => more
    | text => text
  let kept := dropLeadingEmpty (resolve [] (segments text))
  let path := kept.flatMap fun segment => '/' :: Text.Percent.decode segment
  match path.reverse with
  | mark :: letter :: _ =>
    if path.length > 2 && letter.isAlpha && (mark == ':' || mark == '|') then path ++ ['/']
    else path
  | _ => path

/-- Whether the text begins with a drive name that is a whole segment. -/
def startsWithDrive (cs : List Char) : Bool :=
  match cs with
  | [letter, mark] => isDrive [letter, mark]
  | letter :: mark :: c :: _ => isDrive [letter, mark] && endsHost c
  | _ => false

/-- Reads what follows `file:`. -/
def toPath? (rest : List Char) : Option (List Char) :=
  let cs := rest.filter fun c => c != '\t' && c != '\n' && c != '\r'
  let cs := (cs.reverse.dropWhile fun c => c.toNat ≤ 32).reverse
  match cs with
  | a :: b :: more =>
    if (a == '/' || a == '\\') && (b == '/' || b == '\\') then
      if startsWithDrive more then some (pathOf more)
      else
        let host := more.takeWhile fun c => !endsHost c
        let after := more.dropWhile fun c => !endsHost c
        let name := (Text.Percent.decode host).map Char.toLower
        if name.isEmpty || name == "localhost".toList then some (pathOf after)
        else
          -- A drive name at the beginning of the path makes the host not count.
          match resolve [] (segments ((after.takeWhile fun c => c != '?' && c != '#').drop 1)) with
          | segment :: _ => if isDrive segment && hostOk name then some (pathOf after) else none
          | [] => none
    else some (pathOf cs)
  | cs => some (pathOf cs)
where
  hostOk (name : List Char) : Bool :=
    name.all fun c => c.isAlphanum || c == '-' || c == '.' || c == '_'

end StyleGraph.Path.FileUrl
