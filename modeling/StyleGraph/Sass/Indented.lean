import StyleGraph.Sass.Statement

/-!
# Sheets written with indentation

A line is a statement, and the lines below it that are indented further stand inside it.
-/

set_option autoImplicit false

namespace StyleGraph.Sass

/-- A line: how far it is indented, and its text. -/
structure Line where
  indent : Nat
  text : List Char
  deriving Repr, Inhabited

/-- A line with those inside it. -/
inductive Outline
  | node (text : List Char) (inner : List Outline)
  deriving Repr, Inhabited

/-- The line that a text is, unless it is blank. -/
def lineOf? (cs : List Char) : Option Line :=
  let text := Text.trim cs
  if text.isEmpty then none
  else some { indent := (cs.takeWhile fun c => c = ' ' || c = '\t').length, text }

/-- Joins a line that ends with a comma to the next one. -/
def joinCommas : List Line → List Line
  | [] => []
  | line :: rest =>
    match joinCommas rest with
    | [] => [line]
    | next :: lines =>
      if line.text.getLast? = some ',' && line.indent = next.indent then
        { line with text := line.text ++ '\n' :: next.text } :: lines
      else line :: next :: lines

/-- The lines that are indented as given, each with those inside it, and the lines that are indented
less. `fuel` bounds the number of lines. A comment takes what stands inside it along. -/
def outline : Nat → Nat → List Outline → List Line → Except Refusal (List Outline × List Line)
  | 0, _, _, _ => refuse
  | fuel + 1, indent, done, lines =>
    match lines with
    | [] => .ok (done.reverse, [])
    | line :: rest =>
      if line.indent < indent then .ok (done.reverse, line :: rest)
      else if line.indent > indent then refuse
      else if Text.startsWith ['/', '/'] line.text then
        outline fuel indent done (rest.dropWhile fun next => next.indent > indent)
      else do
        let (inner, rest) ←
          match rest with
          | next :: _ =>
            if next.indent > indent then outline fuel next.indent [] rest else .ok ([], rest)
          | [] => .ok ([], [])
        outline fuel indent (.node line.text inner :: done) rest

/-- Whether a text has a semicolon or a brace outside strings. -/
def hasBraces (quote : Option Char) : List Char → Bool
  | [] => false
  | '\\' :: _ :: rest => hasBraces quote rest
  | c :: rest =>
    match quote with
    | some closing => hasBraces (if c = closing then none else quote) rest
    | none =>
      c = ';' || c.toNat = 0x7b || c.toNat = 0x7d ||
        hasBraces (if c = '"' || c.toNat = 0x27 then some c else none) rest

/-- Whether a text is a name with a colon after it; with `spaced` a blank follows the colon. -/
def isNamed (spaced : Bool) (cs : List Char) : Bool :=
  match readName? cs with
  | some (_, ':' :: rest) => rest.head? ≠ some ':' && (!spaced || rest.head?.all isSpace)
  | _ => false

mutual

/-- The statement that a line with those inside it is. `inside` tells whether it stands in a rule. -/
def Outline.statement (inside : Bool) : Outline → Except Refusal Statement
  | .node text inner =>
    let isLine := text.head? = some '$' || text.head? = some '@'
    if Text.startsWith ['/', '*'] text then
      if inner.isEmpty then
        let body := String.ofList text
        .ok (.comment (if Text.endsWith ['*', '/'] text then body else body ++ " */"))
      else refuse
    else if hasBraces none text then refuse
    else if isLine || (inside && inner.isEmpty && isNamed false text) then
      if !inner.isEmpty then do
        let body ← outlineStatements true inner
        match text with
        | '@' :: text => readOuter text body
        | _ => refuse
      else do
        let statement ← readLine text
        match statement with
        | .use _ _ => if inside then refuse else .ok statement
        | _ => .ok statement
    else if inside && isNamed true text then refuse
    else do
      let selectors ← orRefuse (Selector.listOf? text)
      let body ← outlineStatements true inner
      .ok (.rule selectors body)

/-- The statements that lines are. -/
def outlineStatements (inside : Bool) : List Outline → Except Refusal (List Statement)
  | [] => .ok []
  | first :: rest => do
    let statement ← first.statement inside
    let statements ← outlineStatements inside rest
    .ok (statement :: statements)

end

/-- The statements of a sheet written with indentation. -/
def statementsOfIndented (cs : List Char) : Except Refusal (List Statement) := do
  let lines := joinCommas ((Text.cutAll '\n' cs).filterMap lineOf?)
  let (outlines, _) ← outline (2 * lines.length + 2) 0 [] lines
  outlineStatements false outlines

end StyleGraph.Sass
