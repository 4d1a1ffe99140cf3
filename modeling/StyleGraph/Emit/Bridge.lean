import StyleGraph.Emit.Module
import StyleGraph.Request.Proxy

/-!
# Bridge modules

Where another pipeline owns the class names, a bridge module forwards style text next to the class
maps of that pipeline. It never has a default export.
-/

set_option autoImplicit false

namespace StyleGraph.Emit

/-- The name, or the beginning of the names, of imported styles. -/
def styleAlias : String := "__knightedStyle"

/-- The bridge module of a script: the style texts of the styles it imports, one after the other,
and their class maps merged. With `forwardName` each style is asked to use the same export name. -/
def bridgeModule (source exportName : String) (styles : List String) (forwardName : Bool) :
    Module :=
  let names := (List.range styles.length).map fun i => styleAlias ++ toString i
  let forwarded := if forwardName then some exportName else none
  let css : Expr :=
    if names.isEmpty then .str ""
    else .join (names.map fun name => .member name exportName)
  let modules : Expr := if names.isEmpty then .raw "\x7b\x7d" else .modulesOf names
  { imports := (names.zip styles).map fun (name, style) =>
      ⟨name, Request.cssRequest style forwarded⟩
    statements := [.exportConst exportName css, .exportConst modulesExport modules]
    reexports := [source] }

/-- The bridge module of a style: the text compiled here, the class map of the other pipeline, and
the stable selectors if there are any. -/
def bridgeStyleModule (proxyRequest exportName css : String) (stableLiteral : Option String) :
    Module :=
  { imports := [⟨styleAlias, proxyRequest⟩]
    statements :=
      [.exportConst exportName (.str css), .exportConst modulesExport (.modulesOf [styleAlias])] ++
      stableLiteral.toList.map .raw }

end StyleGraph.Emit
