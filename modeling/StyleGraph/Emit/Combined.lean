import StyleGraph.Emit.Module

/-!
# Combined modules

A combined module gives everything the original module exports, and next to it the style text, the
class map and the stable selectors of the same resource.
-/

set_option autoImplicit false

namespace StyleGraph.Emit

/-- What a combined module is to hold. -/
structure CombinedPlan where
  /-- The request for the original module. -/
  source : String
  /-- The request for the resource's style text. -/
  cssRequest : String
  /-- The name under which the style text is exported. -/
  exportName : String
  includeModules : Bool
  includeStable : Bool
  emitDefault : Bool
  deriving DecidableEq, Repr, Inhabited

namespace CombinedPlan

/-- The name of the original module inside the combined one. -/
def sourceAlias : String := "__knightedUpstream"

/-- The name of the style module inside the combined one. -/
def cssAlias : String := "__knightedCss"

/-- The name of the default export's value. -/
def defaultAlias : String := "__knightedDefault"

/-- The name of the class map. -/
def modulesAlias : String := "__knightedModules"

/-- The combined module of a plan. -/
def toModule (plan : CombinedPlan) : Module :=
  let exports : List Stmt :=
    [.exportConst plan.exportName (.member cssAlias plan.exportName)] ++
    (if plan.includeModules then [.exportConst modulesExport (.ident modulesAlias)] else []) ++
    (if plan.includeStable then [.exportConst stableExport (.member cssAlias stableExport)]
     else [])
  { imports := [⟨sourceAlias, plan.source⟩, ⟨cssAlias, plan.cssRequest⟩]
    statements :=
      [.const defaultAlias (.defaultOrNamespace sourceAlias),
       .const modulesAlias (.modulesOf [cssAlias])] ++ exports
    reexports := [plan.source]
    defaultExport := if plan.emitDefault then some (.ident defaultAlias) else none }

end CombinedPlan

end StyleGraph.Emit
