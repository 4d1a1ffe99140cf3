import StyleGraph.Extract.Options

/-!
# Options of a loader

What a loader extracts, and how it names what it exports.
-/

set_option autoImplicit false

namespace StyleGraph

open Config (LoaderMode)

/-- The options of a loader. -/
structure LoaderOptions where
  /-- The name of the export with the text of a sheet. -/
  exportName : String := Config.defaultExportName
  mode : LoaderMode := .standard
  /-- The namespace of stable classes, unless a request has another. -/
  space : String := Stable.defaultNamespace
  css : ExtractOptions

namespace LoaderOptions

/-- The options that a configuration asks for; `cwd` is the directory if it sets none. -/
def ofConfig (config : Config) (cwd : String) : Except Fault LoaderOptions := do
  let css ← ExtractOptions.ofConfig config cwd
  .ok { exportName := config.loader.exportName, mode := config.loader.mode, space := config.space, css }

/-- Whether names are local to a sheet. -/
def hasModules (options : LoaderOptions) : Bool := options.css.finish.any FinishOptions.modules

end LoaderOptions

end StyleGraph
