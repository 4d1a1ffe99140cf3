import StyleGraph.Dialect
import StyleGraph.FileTree
import StyleGraph.Script.Imports
import StyleGraph.Static.Module

/-!
# CSS-in-TS modules that import each other

A module is evaluated with the exports of the CSS-in-TS modules that it imports by relative
specifiers. First all modules that are reached are read, then they are put in order, imports first,
and last they are evaluated in that order. Of modules that import each other in a circle, the one
that comes first in the order finds the names of the later ones unresolved.
-/

set_option autoImplicit false

namespace StyleGraph.Static

/-- The extensions of scripts, in the order in which they are tried. -/
def scriptExtensions : List String := ["ts", "tsx", "mts", "cts", "js", "jsx", "mjs", "cjs"]

/-- Whether a path names a CSS-in-TS file. -/
def isModulePath (path : String) : Bool := (Path.fileName? path).any Dialect.isVanillaName

/-- The paths that a relative specifier may stand for, in the order in which they are tried: as it
is, with each extension of scripts added, and with the extension of a typed script in place of that
of a plain one. -/
def candidates (base : String) : List String :=
  let added := scriptExtensions.map fun extension => base ++ "." ++ extension
  let replaced := [".js", ".mjs", ".cjs", ".jsx"].flatMap fun tail =>
    match Text.stripEnd? tail.toList base.toList with
    | some stem =>
      ["ts", "tsx", "mts", "cts"].map fun extension => String.ofList stem ++ "." ++ extension
    | none => []
  base :: added ++ replaced

/-- The CSS-in-TS file that a relative specifier stands for. -/
def resolve? (tree : FileTree) (importer specifier : String) : Option String := do
  let cs := specifier.toList
  if Text.startsWith "./".toList cs || Text.startsWith "../".toList cs then
    let directory ← Path.parent? importer
    (candidates (Path.clean (Path.join directory specifier))).find? fun path =>
      isModulePath path && tree.isFile path
  else none

/-- A module that was read: its text, and the specifiers of the CSS-in-TS modules that it imports
with the paths of these modules. -/
structure Source where
  text : String
  links : List (String × String)
  deriving DecidableEq, Repr, Inhabited

/-- The modules that were read, by their paths. -/
abbrev Sources := List (String × Source)

/-- A module that was read. -/
def Sources.get? (sources : Sources) (path : String) : Option Source :=
  (sources.find? fun entry => entry.1 = path).map Prod.snd

/-- Why the modules of a project could not be evaluated, with the path of the module. -/
inductive ProjectFault
  | unread (path : String) (cause : ReadFault)
  /-- The text is not a script. -/
  | unreadable (path : String)
  | faulty (path : String) (cause : Fault)
  deriving DecidableEq, Repr, Inhabited

/-- Reads one module. -/
def readSource (tree : FileTree) (path : String) : Except ProjectFault Source :=
  match tree.readText path with
  | .error cause => .error (.unread path cause)
  | .ok text =>
    match Script.importedSources? text path with
    | none => .error (.unreadable path)
    | some specifiers =>
      .ok {
        text
        links := specifiers.filterMap fun specifier =>
          (resolve? tree path specifier).map fun target => (specifier, target) }

/-- Reads modules and all that they import, the first pending one first. A module is read once. -/
def Sources.readAll (tree : FileTree) (pending : List String) (read : Sources) :
    Except ProjectFault Sources :=
  match pending with
  | [] => .ok read
  | path :: rest =>
    if (read.get? path).isSome then read |>.readAll tree rest
    else
      match readSource tree path with
      | .error fault => .error fault
      | .ok source =>
        (read ++ [(path, source)] : Sources) |>.readAll tree
          ((source.links.map Prod.snd).reverse ++ rest)
partial_fixpoint

/-- A module and all modules that it reaches, each after those that it imports. `seen` holds the
modules reached before, `depth` bounds the length of a chain of imports. -/
def orderFrom (sources : Sources) : Nat → String → List String × List String →
    List String × List String
  | 0, _, state => state
  | depth + 1, path, (seen, order) =>
    if seen.contains path then (seen, order)
    else
      let links := ((sources.get? path).map Source.links).getD []
      let (seen, order) := links.foldl (fun state link => orderFrom sources depth link.2 state)
        (path :: seen, order)
      (seen, order ++ [path])

/-- The modules in the order of their evaluation, the entry last. -/
def evaluationOrder (sources : Sources) (entry : String) : List String :=
  (orderFrom sources (sources.length + 1) entry ([], [])).2

/-- The modules that were evaluated, by their paths. -/
abbrev Results := List (String × Evaluated)

/-- A module that was evaluated. -/
def Results.get? (results : Results) (path : String) : Option Evaluated :=
  (results.find? fun entry => entry.1 = path).map Prod.snd

/-- The exports of the imported modules that were evaluated before. Of two links with one specifier
the later counts. -/
def environment (results : Results) (links : List (String × String)) : Environment :=
  links.reverse.filterMap fun (specifier, target) =>
    (results.get? target).map fun evaluated => (specifier, evaluated.exports)

/-- Evaluates modules in order, each with the exports of those before it. -/
def evaluateAll (project : String) (sources : Sources) :
    List String → Results → Except ProjectFault Results
  | [], results => .ok results
  | path :: rest, results =>
    match sources.get? path with
    | none => evaluateAll project sources rest results
    | some source =>
      match evaluateModule source.text path project (environment results source.links) with
      | .error .unreadable => .error (.unreadable path)
      | .error (.faulty cause) => .error (.faulty path cause)
      | .ok evaluated => evaluateAll project sources rest (results ++ [(path, evaluated)])

/-- The style sheet of a CSS-in-TS module, and the other modules that were evaluated for it. -/
structure Compiled where
  css : String
  loaded : List String
  deriving DecidableEq, Repr, Inhabited

/-- Evaluates the CSS-in-TS module at a path of a project. -/
def evaluateFile (tree : FileTree) (path project : String) : Except ProjectFault Compiled := do
  let sources ← Sources.readAll tree [path] []
  let order := evaluationOrder sources path
  let results ← evaluateAll project sources order []
  pure {
    css := ((results.get? path).map Evaluated.css).getD ""
    loaded := order.filter (· != path) }

end StyleGraph.Static
