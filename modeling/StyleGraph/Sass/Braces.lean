import StyleGraph.Sass.Statement

/-!
# Sheets written with braces

A statement ends at a semicolon, at the brace that closes the rule around it, or with the rule that
it is.
-/

set_option autoImplicit false

namespace StyleGraph.Sass

/-- What follows a comment up to the end of its line. -/
def afterLine (cs : List Char) : List Char := cs.dropWhile (· != '\n')

/-- A comment between stars, after its beginning, and what follows it. -/
def takeComment : List Char → Option (List Char × List Char)
  | [] => none
  | '*' :: '/' :: rest => some (['*', '/'], rest)
  | c :: rest => (takeComment rest).map fun (text, rest) => (c :: text, rest)

/-- The text of a statement up to a semicolon or a brace, and what follows, that character first.
Comments up to the end of a line go, those between stars become a blank. `quote` is the quote of a
string that is open, `skipped` tells whether a comment is, and by what it ends. -/
def takeStatement (quote : Option Char) (skipped : Option Char) : List Char → List Char × List Char
  | [] => ([], [])
  | '\\' :: c :: rest =>
    let (text, rest) := takeStatement quote skipped rest
    (if skipped.isSome then text else '\\' :: c :: text, rest)
  | '*' :: '/' :: rest =>
    if skipped = some '/' then takeStatement none none rest
    else
      let (text, rest) := takeStatement quote skipped rest
      (if skipped.isSome then text else '*' :: '/' :: text, rest)
  | '/' :: '/' :: rest =>
    if quote.isSome || skipped.isSome then
      let (text, rest) := takeStatement quote skipped rest
      (if skipped.isSome then text else '/' :: '/' :: text, rest)
    else takeStatement none (some '\n') rest
  | '/' :: '*' :: rest =>
    if quote.isSome || skipped.isSome then
      let (text, rest) := takeStatement quote skipped rest
      (if skipped.isSome then text else '/' :: '*' :: text, rest)
    else
      let (text, rest) := takeStatement none (some '/') rest
      (' ' :: text, rest)
  | c :: rest =>
    if skipped.isSome then
      if skipped = some c && c = '\n' then
        let (text, rest) := takeStatement none none rest
        (c :: text, rest)
      else takeStatement quote skipped rest
    else if quote.isNone && (c = ';' || c.toNat = 0x7b || c.toNat = 0x7d) then ([], c :: rest)
    else
      let next :=
        if quote = some c then none
        else if quote.isNone && (c = '"' || c.toNat = 0x27) then some c
        else quote
      let (text, rest) := takeStatement next none rest
      (c :: text, rest)

/-- Whether a text followed by a brace is a selector and not a property with others inside. -/
def isSelectorText (cs : List Char) : Bool := (Text.trimEnd cs).getLast? ≠ some ':'

/-- The statements up to a closing brace or to the end. `fuel` bounds their number, `inside` tells
whether they stand in a rule. -/
def readBraces : Nat → Bool → List Statement → List Char →
    Except Refusal (List Statement × List Char)
  | 0, _, _, _ => refuse
  | fuel + 1, inside, done, cs =>
    match cs.dropWhile fun c => isSpace c || c = ';' with
    | [] => if inside then refuse else .ok (done.reverse, [])
    | '\x7d' :: rest => if inside then .ok (done.reverse, rest) else refuse
    | '/' :: '/' :: rest => readBraces fuel inside done (afterLine rest)
    | '/' :: '*' :: rest => do
      let (text, rest) ← orRefuse (takeComment rest)
      readBraces fuel inside (.comment ("/*" ++ String.ofList text) :: done) rest
    | cs =>
      match takeStatement none none cs with
      | (text, '\x7b' :: rest) => do
        if text.head? = some '$' || !isSelectorText text then refuse
        else
          let (body, rest) ← readBraces fuel true [] rest
          let statement ← match text with
            | '@' :: text => readOuter text body
            | text => (orRefuse (Selector.listOf? text)).map fun selectors => .rule selectors body
          readBraces fuel inside (statement :: done) rest
      | (text, rest) => do
        let statement ← readLine text
        let fits :=
          match statement with
          | .declaration _ _ | .custom _ _ => inside
          | .use _ _ => !inside
          | _ => true
        if fits then readBraces fuel inside (statement :: done) rest else refuse

/-- The statements of a sheet written with braces. -/
def statementsOfBraces (cs : List Char) : Except Refusal (List Statement) :=
  (readBraces (2 * cs.length + 2) false [] cs).map Prod.fst

end StyleGraph.Sass
