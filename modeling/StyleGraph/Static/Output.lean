import StyleGraph.Static.Property

/-!
# Recorded rules

What an evaluation writes: rules in blocks, and texts that are written as they are. Each text
remembers how many blocks were recorded before it.
-/

set_option autoImplicit false

namespace StyleGraph.Static

/-- A rule inside conditions, the outermost first. -/
structure Block where
  conditions : List String
  selector : String
  declarations : List Declaration
  deriving DecidableEq, Repr, Inhabited

/-- Two blanks for each level. -/
def indentation (level : Nat) : String := String.ofList (List.replicate (2 * level) ' ')

/-- Opening lines of nested conditions, and of the rule inside them. -/
def openings : Nat → List String → String
  | _, [] => ""
  | level, line :: rest => indentation level ++ line ++ " \x7b\n" ++ openings (level + 1) rest

/-- Closing lines from a number of levels down to none. -/
def closings : Nat → String
  | 0 => ""
  | level + 1 => indentation level ++ "\x7d\n" ++ closings level

/-- A line for each declaration. -/
def declarationLines (level : Nat) (declarations : List Declaration) : String :=
  String.join (declarations.map fun (property, value) =>
    indentation level ++ property ++ ": " ++ value ++ ";\n")

/-- The text of a block. A block without declarations has none. -/
def Block.render (block : Block) : String :=
  if block.declarations.isEmpty then ""
  else
    let depth := block.conditions.length
    openings 0 (block.conditions ++ [block.selector]) ++
      declarationLines (depth + 1) block.declarations ++ closings (depth + 1)

/-- Everything recorded. -/
structure Output where
  blocks : List Block := []
  /-- Texts, each with the number of blocks recorded before it. -/
  texts : List (Nat × String) := []
  deriving DecidableEq, Repr, Inhabited

namespace Output

/-- Records a block. -/
def addBlock (output : Output) (block : Block) : Output :=
  { output with blocks := output.blocks ++ [block] }

/-- Records a text. -/
def addText (output : Output) (text : String) : Output :=
  { output with texts := output.texts ++ [(output.blocks.length, text)] }

/-- The text of the blocks from the given index on, each after the texts that belong before it. -/
def merge : Nat → List Block → List (Nat × String) → String
  | _, [], texts => String.join (texts.map Prod.snd)
  | index, block :: blocks, texts =>
    let due := texts.takeWhile fun entry => entry.1 ≤ index
    let later := texts.dropWhile fun entry => entry.1 ≤ index
    String.join (due.map Prod.snd) ++ block.render ++ merge (index + 1) blocks later

/-- Everything recorded, in the order in which it was recorded. -/
def render (output : Output) : String := merge 0 output.blocks output.texts

end Output

end StyleGraph.Static
