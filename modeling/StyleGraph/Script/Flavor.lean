import StyleGraph.Path.Basic

/-!
# Flavours of script

Which syntax a script may use beyond the plain language, told by the extension of its file name.
-/

set_option autoImplicit false

namespace StyleGraph.Script

/-- The syntax that a script may use beyond the plain language. -/
structure Flavor where
  /-- Type annotations and declarations. -/
  types : Bool := false
  /-- Markup elements among the expressions. -/
  markup : Bool := false
  /-- Declarations without values, as in declaration files. -/
  ambient : Bool := false
  deriving DecidableEq, Repr, Inhabited

namespace Flavor

/-- The plain language. -/
def plain : Flavor := {}

/-- The flavour with the most syntax. -/
def full : Flavor := { types := true, markup := true }

/-- The flavour of a file, if its extension is known. -/
def ofPath? (path : String) : Option Flavor :=
  match Path.extension? path with
  | some "js" | some "mjs" | some "cjs" => some plain
  | some "jsx" => some { markup := true }
  | some "ts" | some "mts" | some "cts" =>
    let name := (Path.fileName? path).getD ""
    some { types := true, ambient := Text.contains ".d.".toList name.toList }
  | some "tsx" => some full
  | _ => none

end Flavor

end StyleGraph.Script
