import StyleGraph.Script.Flavor
import StyleGraph.Script.Lexeme
import StyleGraph.Script.Syntax

/-!
# The entry points of the script grammar

The parts of the grammar refer to each other through a record of entry points, so each part is
defined by itself; tying the parts together happens in one place.
-/

set_option autoImplicit false

namespace StyleGraph.Script

/-- An expression as far as its surroundings need to know it. -/
structure Operand where
  value : Expression := .other
  /-- It can be assigned to, as a reference or as a pattern. -/
  target : Bool := false
  /-- It is a reference: a name or a member. -/
  reference : Bool := false
  /-- It is an assignment, which gives a default value inside a pattern. -/
  assigned : Bool := false
  /-- It has a default value inside braces, which only a pattern may have. -/
  pending : Bool := false
  /-- It begins with an operator. -/
  signed : Bool := false
  deriving Inhabited

namespace Operand

/-- An expression that is a plain value. -/
def plain (value : Expression) : Operand := { value }

/-- A reference. -/
def referring (value : Expression) : Operand := { value, target := true, reference := true }

/-- Fails on an operand that would only be right as a pattern. -/
def settled (operand : Operand) : Read Operand := do
  Read.ensure !operand.pending
  pure operand

end Operand

/-- Where an expression stands. -/
structure Place where
  /-- `in` is an operator here. -/
  relational : Bool := true
  /-- A colon after parameters begins a result type here. -/
  resultTypes : Bool := true
  deriving DecidableEq, Repr, Inhabited

/-- The entry points of the grammar. -/
structure Grammar where
  /-- One expression without commas at its top. -/
  assignment : Place → Read Operand
  /-- A reference with its members and calls, without operators. -/
  callee : Read Operand
  /-- A type. -/
  type : Read Unit
  /-- A pattern, without a default value. -/
  pattern : Read Pattern
  /-- A markup element, from its opening angle bracket on. -/
  element : Read Unit
  statement : Read Statement
  /-- A statement among declarations without values. -/
  declared : Read Statement

namespace Grammar

/-- The grammar that accepts nothing. -/
def empty : Grammar where
  assignment := fun _ => Read.refuse
  callee := Read.refuse
  type := Read.refuse
  pattern := Read.refuse
  element := Read.refuse
  statement := Read.refuse
  declared := Read.refuse

variable (g : Grammar)

/-- An expression without commas at its top, as a value. -/
def item (place : Place) : Read Expression := do
  let operand ← g.assignment place
  pure (← operand.settled).value

/-- An expression, which may be several with commas between them. -/
def expression (place : Place) : Read Expression := do
  let first ← g.item place
  let rest ← Read.repeatWhile do
    if ← Read.mark? "," then pure (some (← g.item place)) else pure none
  pure (if rest.isEmpty then first else .other)

/-- Statements in braces. -/
def block : Read Unit := do
  Read.mark "\x7b"
  let _ ← Read.repeatWhile do
    if ← Read.mark? "\x7d" then pure none else pure (some (← g.statement))

/-- A property name: a word, a literal, or an expression in brackets. -/
def key : Read Key := do
  match ← Read.next with
  | .word name _ => pure (.named name)
  | .text value => pure (.computed (.text value))
  | .numeral (some value) => pure (.computed (.number value))
  | .numeral none => pure (.computed .other)
  | .mark "[" =>
    let value ← g.item {}
    Read.mark "]"
    pure (.computed value)
  | _ => Read.refuse

/-- Decorators: each an at sign and a reference with its calls, or an expression in parentheses. -/
def decorators : Read Unit := do
  let _ ← Read.repeatWhile do
    if ← Read.mark? "@" then pure (some (← g.callee)) else pure none

/-- A name of a class member, which may also be private. -/
def memberKey : Read Unit := do
  match ← Read.peek with
  | .hash _ => let _ ← Read.next
  | _ => let _ ← g.key

end Grammar

end StyleGraph.Script
