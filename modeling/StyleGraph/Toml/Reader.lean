import StyleGraph.Toml.Document
import StyleGraph.Toml.Literal

/-!
# Written TOML

A document is a sequence of lines: headers, keys with values, comments and empty lines. Every line
end counts, except inside brackets. Fewer than 80 values stand inside each other, and fewer than 80
names in one key.
-/

set_option autoImplicit false

namespace StyleGraph.Toml

open Config (Setting)

/-- What follows blanks on one line. -/
def skipSpaces (cs : List Char) : List Char := cs.dropWhile isSpace

/-- What follows a comment up to the end of its line. -/
def skipComment? : List Char → Option (List Char)
  | '#' :: rest =>
    match rest.dropWhile isPlain with
    | [] => some []
    | '\n' :: after => some ('\n' :: after)
    | '\r' :: '\n' :: after => some ('\n' :: after)
    | _ => none
  | cs => some cs

/-- What follows blanks, comments and line ends. `fuel` bounds their number. -/
def skipLines : Nat → List Char → Option (List Char)
  | 0, cs => some cs
  | fuel + 1, cs =>
    match skipSpaces cs with
    | '\n' :: rest => skipLines fuel rest
    | '\r' :: '\n' :: rest => skipLines fuel rest
    | '#' :: rest => (skipComment? ('#' :: rest)).bind (skipLines fuel)
    | rest => some rest

/-- What follows the end of a line. -/
def endLine? (cs : List Char) : Option (List Char) := do
  match ← skipComment? (skipSpaces cs) with
  | [] => some []
  | '\n' :: rest => some rest
  | '\r' :: '\n' :: rest => some rest
  | _ => none

/-- The greatest number of names in a key, and of values inside each other. -/
def depthLimit : Nat := 79

/-- One name of a key. -/
def readName (cs : List Char) : Option (String × List Char) :=
  match cs with
  | '"' :: rest => readQuoted rest
  | c :: rest =>
    if c = singleQuote then readLiteral rest
    else if isBare c then
      some (String.ofList ((c :: rest).takeWhile isBare), (c :: rest).dropWhile isBare)
    else none
  | [] => none

/-- A key: names with dots between them. `fuel` bounds the number of names. -/
def readKey : Nat → List Char → Option (List String × List Char)
  | 0, _ => none
  | fuel + 1, cs => do
    let (name, rest) ← readName (skipSpaces cs)
    match skipSpaces rest with
    | '.' :: rest => do
      let (names, rest) ← readKey fuel rest
      some (name :: names, rest)
    | rest => some ([name], rest)

/-- A key up to its equals sign, its last name apart. -/
def readAssigned (cs : List Char) : Option ((List String × String) × List Char) := do
  match ← readKey depthLimit cs with
  | (names, '=' :: rest) => do some ((names.dropLast, ← names.getLast?), skipSpaces rest)
  | _ => none

/-- A string, after the quote that it begins with. -/
def readString (cs : List Char) : Option (String × List Char) :=
  match cs with
  | '"' :: '"' :: '"' :: rest => readLongQuoted rest
  | '"' :: rest => readQuoted rest
  | _ =>
    if Text.startsWith [singleQuote, singleQuote, singleQuote] cs then readLongLiteral (cs.drop 3)
    else readLiteral (cs.drop 1)

mutual

/-- A value. `fuel` bounds the number of steps, `depth` how many values may stand in each other. -/
def readValue : Nat → Nat → List Char → Option (Setting × List Char)
  | 0, _, _ => none
  | fuel + 1, depth, cs =>
    match cs with
    | '[' :: rest =>
      match depth with
      | 0 => none
      | depth + 1 => (readItems fuel depth [] rest).map fun (items, rest) => (.list items, rest)
    | '\x7b' :: rest =>
      match depth with
      | 0 => none
      | depth + 1 =>
        match skipSpaces rest with
        | '\x7d' :: rest => some (.table [], rest)
        | rest =>
          (readMembers fuel depth [] rest).map fun (members, rest) =>
            (.table (membersSettings members), rest)
    | c :: _ =>
      if c = '"' || c = singleQuote then
        (readString cs).map fun (text, rest) => (.text text, rest)
      else readScalar cs
    | [] => none

/-- The items of a list, up to its closing bracket. -/
def readItems : Nat → Nat → List Setting → List Char → Option (List Setting × List Char)
  | 0, _, _, _ => none
  | fuel + 1, depth, items, cs => do
    match ← skipLines (cs.length + 1) cs with
    | ']' :: rest => some (items.reverse, rest)
    | rest => do
      let (item, rest) ← readValue fuel depth rest
      match ← skipLines (rest.length + 1) rest with
      | ']' :: rest => some ((item :: items).reverse, rest)
      | ',' :: rest => readItems fuel depth (item :: items) rest
      | _ => none

/-- The members of a table inside braces, up to its closing brace. -/
def readMembers : Nat → Nat → Members → List Char → Option (Members × List Char)
  | 0, _, _, _ => none
  | fuel + 1, depth, members, cs => do
    let ((path, key), rest) ← readAssigned cs
    let (setting, rest) ← readValue fuel depth rest
    let members ← addValue path key setting .defined members
    match skipSpaces rest with
    | '\x7d' :: rest => some (members, rest)
    | ',' :: rest => readMembers fuel depth members rest
    | _ => none

end

/-- A document as far as it is read. -/
structure Draft where
  members : Members := []
  /-- The path of the table that values are added to. -/
  header : List String := []

namespace Draft

/-- Changes the table that a path leads to. -/
def change (draft : Draft) (path : List String) (edit : Origin → Members → Option Members) :
    Option Members :=
  descend .passed edit path .defined draft.members

/-- One line, after the blanks before it, with what follows the line. -/
def readLine (draft : Draft) (cs : List Char) : Option (Draft × List Char) := do
  match cs with
  | [] | '#' :: _ | '\n' :: _ | '\r' :: _ => some (draft, ← endLine? cs)
  | '[' :: '[' :: rest =>
    match ← readKey depthLimit rest with
    | (header, ']' :: ']' :: rest) => do
      let key ← header.getLast?
      let members ← draft.change header.dropLast fun _ members => addItem key members
      some ({ members, header }, ← endLine? rest)
    | _ => none
  | '[' :: rest =>
    match ← readKey depthLimit rest with
    | (header, ']' :: rest) => do
      let key ← header.getLast?
      let members ← draft.change header.dropLast fun _ members => addTable key members
      some ({ members, header }, ← endLine? rest)
    | _ => none
  | _ => do
    let ((path, key), rest) ← readAssigned cs
    let (setting, rest) ← readValue (2 * rest.length + 2) depthLimit rest
    let members ← draft.change draft.header (addValue path key setting)
    some ({ draft with members }, ← endLine? rest)

/-- All lines. `fuel` bounds their number. -/
def readLines : Nat → Draft → List Char → Option Draft
  | 0, _, _ => none
  | fuel + 1, draft, cs => do
    let (draft, rest) ← draft.readLine (skipSpaces cs)
    if rest.isEmpty then some draft else readLines fuel draft rest

end Draft

/-- The setting that a document is: a table. A mark of the byte order may stand before it. -/
def parse (text : String) : Option Setting := do
  let cs := text.toList
  let cs := if cs.head?.any fun c => c.toNat == 0xfeff then cs.drop 1 else cs
  let draft ← Draft.readLines (cs.length + 1) {} cs
  some (.table (membersSettings draft.members))

end StyleGraph.Toml
