import StyleGraph.Script.Linkage

/-!
# Statements of scripts

Statements of every kind may stand at every level; only those of the top level are kept.
-/

set_option autoImplicit false

namespace StyleGraph.Script.Sequence

open Read

variable (f : Flavor) (g : Grammar)

/-- An expression in parentheses. -/
def condition : Read Unit := do
  mark "("
  let _ ← g.expression {}
  mark ")"

/-- A statement that is part of another one. -/
def part : Read Unit := do
  let _ ← g.statement

/-- The rest of a loop head after its beginning and a semicolon. -/
def loopRest : Read Unit := do
  if !(← atMark ";") then
    let _ ← g.expression {}
  mark ";"
  if !(← atMark ")") then
    let _ ← g.expression {}

/-- Takes what goes through the items of a value, if it is next. -/
def through? : Read Bool := do
  if ← word? "of" then
    let _ ← g.item {}
    pure true
  else if ← word? "in" then
    let _ ← g.expression {}
    pure true
  else pure false

/-- The head of a loop, in parentheses. -/
def loopHead : Read Unit := do
  mark "("
  if ← mark? ";" then loopRest g
  else
    let place : Place := { relational := false }
    match ← Declaration.kind? with
    | some kind =>
      let found ← Declaration.declarators f g place
      if !(← through? g) then
        ensure (Declaration.complete f kind found)
        mark ";"
        loopRest g
    | none =>
      let operand ← g.assignment place
      if operand.target && ((← atWord "of") || (← atWord "in")) then
        let _ ← through? g
      else
        let _ ← operand.settled
        let _ ← repeatWhile do
          if ← mark? "," then pure (some (← g.item place)) else pure none
        mark ";"
        loopRest g
  mark ")"

/-- The cases of a choice, in braces. -/
def cases : Read Unit := do
  mark "\x7b"
  let _ ← repeatWhile do
    if ← mark? "\x7d" then pure none
    else
      if ← word? "case" then
        let _ ← g.expression {}
      else word "default"
      mark ":"
      let _ ← repeatWhile do
        if (← atWord "case") || (← atWord "default") || (← atMark "\x7d") then pure none
        else pure (some (← g.statement))
      pure (some ())

/-- A guarded block with what handles its failures. -/
def guarded : Read Unit := do
  g.block
  let caught ← word? "catch"
  if caught then
    if ← mark? "(" then
      let _ ← g.pattern
      Annotation.colon? f g
      mark ")"
    g.block
  if ← word? "finally" then g.block else ensure caught

/-- A statement that a keyword begins, after that keyword. -/
def keyed (keyword : String) : Read Unit := do
  match keyword with
  | "if" =>
    condition g
    part g
    if ← word? "else" then part g
  | "for" =>
    if ← word? "await" then ensure (← read).awaits
    loopHead f g
    part g
  | "while" | "with" =>
    condition g
    part g
  | "do" =>
    part g
    word "while"
    condition g
    let _ ← mark? ";"
  | "switch" =>
    condition g
    cases g
  | "try" => guarded f g
  | "throw" =>
    ensure !(← onNewLine)
    let _ ← g.expression {}
    endStatement
  | "return" =>
    ensure (← read).returns
    let ends := (← onNewLine) || (← atMark ";") || (← atMark "\x7d") || (← peek) = .finish
    if !ends then
      let _ ← g.expression {}
    endStatement
  | "break" | "continue" =>
    if (← atName) && !(← onNewLine) then
      let _ ← name
    endStatement
  | "debugger" => endStatement
  | _ => refuse

/-- The keywords that begin statements of their own. -/
def keywords : List String :=
  ["if", "for", "while", "with", "do", "switch", "try", "throw", "return", "break", "continue",
    "debugger"]

/-- A statement that is none of a declaration, an import or an export. -/
def plain : Read Statement := do
  match ← peek with
  | .mark "\x7b" =>
    g.block
    pure .other
  | .mark ";" =>
    let _ ← next
    pure .other
  | .word w false =>
    if keywords.contains w then
      let _ ← next
      keyed f g w
      pure .other
    else
      let labelled ← attempt do
        let _ ← name
        mark ":"
      match labelled with
      | some _ =>
        part g
        pure .other
      | none =>
        let value ← g.expression {}
        endStatement
        pure (.expression value)
  | _ =>
    let value ← g.expression {}
    endStatement
    pure (.expression value)

/-- Whether decorators stand before an exported class. -/
def decoratedExport? : Read (Option Statement) :=
  attempt do
    ensure (← atMark "@")
    g.decorators
    ensure (← atWord "export")
    Linkage.exports f g

/-- A statement. -/
def statement : Read Statement := do
  if ← atWord "export" then Linkage.exports f g
  else if ← ahead (do word "import"; ensure !((← atMark "(") || (← atMark "."))) then
    Linkage.imports f g
  else
    match ← decoratedExport? f g with
    | some found => pure found
    | none =>
      match ← Declaration.any? f g with
      | some (some found) => pure (.declared found)
      | some none => pure .other
      | none => plain f g

end StyleGraph.Script.Sequence
