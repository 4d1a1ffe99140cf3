import StyleGraph.Path.Basic

/-!
# Dialects

The style-authoring syntax of a file. It is decided by the file's name alone, and a name that
carries a CSS-in-TS suffix is CSS-in-TS whatever its extension.
-/

set_option autoImplicit false

namespace StyleGraph

/-- A style-authoring syntax. -/
inductive Dialect
  | css
  | scss
  /-- The indented syntax of Sass. -/
  | sass
  | less
  /-- CSS written as a typed script. -/
  | vanilla
  deriving DecidableEq, Repr, Inhabited

namespace Dialect

/-- The name shown for a dialect. -/
def name : Dialect → String
  | .css => "css"
  | .scss => "scss"
  | .sass => "sass"
  | .less => "less"
  | .vanilla => "vanilla"

/-- The dialect with a given name. -/
def ofName? (name : String) : Option Dialect :=
  [css, scss, sass, less, vanilla].find? fun dialect => dialect.name == name

/-- The suffixes of CSS-in-TS files. -/
def vanillaSuffixes : List String :=
  [".css.ts", ".css.tsx", ".css.mts", ".css.cts", ".css.js", ".css.jsx", ".css.mjs", ".css.cjs"]

/-- Whether a name, or the path of a request, carries a CSS-in-TS suffix. -/
def isVanillaName (name : String) : Bool :=
  vanillaSuffixes.any fun suffix => Text.endsWith suffix.toList name.toList

/-- The dialect of a path, if the path names a style file. -/
def ofPath? (path : String) : Option Dialect := do
  let name ← Path.fileName? path
  if isVanillaName name then some .vanilla
  else
    match ← Path.extensionOfName? name with
    | "css" => some .css
    | "scss" => some .scss
    | "sass" => some .sass
    | "less" => some .less
    | _ => none

end Dialect

end StyleGraph
