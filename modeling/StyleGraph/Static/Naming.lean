import StyleGraph.Hash.Blake3
import StyleGraph.Path.Basic

/-!
# Generated names

A CSS-in-TS module names classes, animations, fonts and variables after its file, the binding they
are made for, and a hash of the file's path inside the project and of a running number.
-/

set_option autoImplicit false

namespace StyleGraph.Static

/-- What the generated names of one module have in common. -/
structure Naming where
  /-- The first part of every name. -/
  stem : String
  /-- The path inside the project, which is hashed. -/
  relative : String
  deriving DecidableEq, Repr, Inhabited

/-- The text before the first occurrence of `part`, or all of it. -/
def beforePart (part : List Char) : List Char → List Char
  | [] => []
  | c :: rest => if Text.startsWith part (c :: rest) then [] else c :: beforePart part rest

/-- How a module at a path is named in a project. A path outside the project is hashed as it is,
and backslashes count as slashes. -/
def Naming.ofPath (path project : String) : Naming :=
  let name := (Path.fileName? path).getD "styles"
  let inside := (Path.stripBase? project path).getD path
  { stem := String.ofList (beforePart ".css.".toList name.toList)
    relative := String.ofList (inside.toList.map fun c => if c = '\\' then '/' else c) }

/-- The text that is hashed for the name with a running number. -/
def Naming.hashed (naming : Naming) (ordinal : Nat) : String :=
  naming.relative ++ toString ordinal

/-- The name with a running number, made for a binding if there is one. -/
def Naming.name (naming : Naming) (ordinal : Nat) (binding : Option String) : String :=
  let digits := String.ofList ((Hash.Blake3.hexOfText (naming.hashed ordinal)).toList.take 8)
  let lead :=
    match binding with
    | some binding => if binding.isEmpty then naming.stem else naming.stem ++ "_" ++ binding
    | none => naming.stem
  lead ++ "__" ++ digits

end StyleGraph.Static
