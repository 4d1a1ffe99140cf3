import StyleGraph.Script.Lexeme

/-!
# Operators of scripts

Operators that stand between two operands, put together from their lexemes.
-/

set_option autoImplicit false

namespace StyleGraph.Script.Operator

open Read

/-- Marks that are an operator between two values. -/
def binaryMarks : List String :=
  ["**", "*", "/", "%", "+", "-", "===", "!==", "==", "!=", "&&", "||", "??", "&", "|", "^"]

/-- Marks that are an assignment. -/
def assignmentMarks : List String :=
  ["=", "+=", "-=", "*=", "**=", "/=", "%=", "&=", "|=", "^=", "&&=", "||=", "??="]

/-- Operators that begin with an angle bracket, no entry being the beginning of a later one, each
with whether it assigns. -/
def angled : List (String × Bool) :=
  [("<<=", true), ("<<", false), ("<=", false), ("<", false), (">>>=", true), (">>>", false),
    (">>=", true), (">>", false), (">=", false), (">", false)]

/-- The operator with angle brackets that is next. -/
def angled? : Read (Option (String × Bool)) := do
  let cs ← remaining
  pure (angled.find? fun (symbol, _) => Text.startsWith symbol.toList cs)

/-- Takes the operator between two values that is next, `in` only where it is one. -/
def binary? (relational : Bool) : Read (Option String) := do
  match ← peek with
  | .mark m =>
    if binaryMarks.contains m then
      mark m
      pure (some m)
    else
      match ← angled? with
      | some (symbol, false) =>
        resume ((← remaining).drop symbol.length)
        pure (some symbol)
      | _ => pure none
  | .word "instanceof" false =>
    word "instanceof"
    pure (some "instanceof")
  | .word "in" false =>
    if relational then
      word "in"
      pure (some "in")
    else pure none
  | _ => pure none

/-- Takes the assignment operator that is next. -/
def assignment? : Read (Option String) := do
  match ← peek with
  | .mark m =>
    if assignmentMarks.contains m then
      mark m
      pure (some m)
    else
      match ← angled? with
      | some (symbol, true) =>
        resume ((← remaining).drop symbol.length)
        pure (some symbol)
      | _ => pure none
  | _ => pure none

/-- Whether types in angle brackets right before the next lexeme are arguments, and the bracket
before them is no comparison. -/
def followsArguments : Read Bool := do
  match ← peek with
  | .mark "(" | .mark "\x60" => pure true
  | .mark "<" | .mark ">" | .mark "+" | .mark "-" => pure false
  | .mark m =>
    if ["[", "\x7b", "~", "!", "++", "--", "/", "/=", "@"].contains m && !binaryMarks.contains m then
      onNewLine
    else pure true
  | .word w _ =>
    if ["in", "instanceof", "as", "satisfies"].contains w then pure true else onNewLine
  | .finish => pure true
  | _ => onNewLine

end StyleGraph.Script.Operator
