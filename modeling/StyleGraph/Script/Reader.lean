import StyleGraph.Script.Markup
import StyleGraph.Script.Sequence

/-!
# Reading scripts

The parts of the grammar tied together. Every reference from one part to another goes one level
down, and every level consumes text, so as many levels as the text has characters are enough.
-/

set_option autoImplicit false

namespace StyleGraph.Script

/-- The grammar whose entry points refer to each other as often as the given number of times. -/
def grammar (f : Flavor) : Nat → Grammar
  | 0 => .empty
  | levels + 1 =>
    { assignment := fun place around cs =>
        Formula.assignment f (grammar f levels) place around cs
      callee := fun around cs => Operand.callee f (grammar f levels) around cs
      type := fun around cs => Annotation.type (grammar f levels) around cs
      pattern := fun around cs => Binding.pattern (grammar f levels) around cs
      element := fun around cs => Markup.element f (grammar f levels) around cs
      statement := fun around cs => Sequence.statement f (grammar f levels) around cs
      declared := fun around cs =>
        Sequence.statement { f with ambient := true } (grammar { f with ambient := true } levels)
          around cs }

/-- The statements of a script. -/
def statements (f : Flavor) (levels : Nat) : Read (List Statement) :=
  Read.repeatWhile do
    if (← Read.peek) = .finish then pure none
    else pure (some (← (grammar f levels).statement))

/-- Reads a script, which may begin with a line for a command interpreter. Nothing when the text is
not a script of the flavour. Without types, a script also must not export a name twice. -/
def read? (f : Flavor) (source : String) : Option (List Statement) :=
  let cs := source.toList
  let cs :=
    match cs with
    | '#' :: '!' :: rest => rest.dropWhile (!Literal.isLineEnd ·)
    | cs => cs
  match statements f (2 * cs.length + 8) {} cs with
  | some (found, _) => if f.types || exportsApart found then some found else none
  | none => none

end StyleGraph.Script
