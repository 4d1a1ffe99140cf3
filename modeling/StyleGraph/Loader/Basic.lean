import StyleGraph.Emit.Bridge
import StyleGraph.Emit.Combined
import StyleGraph.Extract.Basic
import StyleGraph.Json.Basic
import StyleGraph.Loader.Resource
import StyleGraph.Script.Imports

/-!
# The loader

A loader answers a resource with a module that exports the text of the resource's styles. Next to
the module it names the files that the answer depends on, and it warns of what it ignores.
-/

set_option autoImplicit false

namespace StyleGraph

/-- What loading a resource gives. -/
structure Loading where
  /-- The source of the module. -/
  result : Except LoadFault String
  /-- The files that the module depends on. -/
  dependencies : List String := []
  warnings : List String := []
  /-- What the extraction did outside itself. -/
  events : List Walk.Event := []

namespace LoaderOptions

/-- The name of the export with the styles, unless a request gives another. -/
def defaultName (options : LoaderOptions) : String :=
  if Emit.isIdentifier options.exportName then options.exportName else Config.defaultExportName

/-- The name of the export with the styles. -/
def exportNameFor (options : LoaderOptions) (flags : Request.Flags) : String :=
  match flags.exportName with
  | some name => if Emit.isIdentifier name then name else options.defaultName
  | none => options.defaultName

/-- The namespace of stable classes: that of the request, then that of the extraction, then that of
the loader. -/
def spaceFor (options : LoaderOptions) (flags : Request.Flags) : String :=
  match flags.stableNamespace with
  | some space => space
  | none =>
    match options.css.stable with
    | .custom (some space) _ _ => space
    | _ => options.space

/-- The options of the extraction for a request. Stable variants are added under the namespace when
the request is about them, and their names are chosen as always. -/
def extractionFor (options : LoaderOptions) (flags : Request.Flags) : ExtractOptions :=
  if flags.stableRequested then
    let space := some (options.spaceFor flags)
    let stable :=
      match options.css.stable with
      | .custom _ included excluded => Stable.AutoStable.custom space included excluded
      | _ => .custom space none none
    { options.css with stable }
  else options.css

end LoaderOptions

namespace Loader

/-- What is said when a request gives a name that cannot be exported. -/
def nameWarnings (options : LoaderOptions) (resource : Resource) : List String :=
  match resource.flags.exportName with
  | some name =>
    if Emit.isIdentifier name then []
    else
      ["knighted-css: ignoring exportName=" ++ name ++ " for " ++ resource.path ++
        "; not a valid identifier, using " ++ options.defaultName]
  | none => []

/-- What is said when a combined script in bridge mode is asked for types. -/
def typesWarnings (resource : Resource) : List String :=
  if resource.flags.typesRequested then
    ["knighted-css: the types flag is not supported for bridge combined requests (" ++
      resource.path ++ "); stableSelectors will not be emitted"]
  else []

/-- What is said when a style in bridge mode is asked for as combined. -/
def combinedWarnings (resource : Resource) : List String :=
  if resource.flags.combined then
    ["knighted-css: combined is ignored for style resources in bridge mode (" ++ resource.path ++
      "); emitting the style payload"]
  else []

/-- The request for a resource without this library's flags. -/
def proxyRequest (resource : Resource) : String :=
  Request.proxyRequest resource.path resource.rawRequest resource.rootDirectory resource.query

/-- The class map of a sheet as an object. -/
def classMap (names : List (String × String)) : String :=
  (Json.obj (names.map fun (name, value) => (name, .str value))).compress

/-- The original with the styles added. A style resource has no original. -/
def standardModule (resource : Resource) (name : String) (sheet : Extracted)
    (literal : Option String) : Emit.Module :=
  let original : List Emit.Stmt := if resource.isScript then [.raw resource.source] else []
  let names := sheet.modules.map fun names =>
    Emit.Stmt.exportConst Emit.modulesExport (.raw (classMap names))
  { statements :=
      original ++ [.exportConst name (.str sheet.css)] ++ literal.toList.map .raw ++
        names.toList }

/-- The combined module of a resource. -/
def combinedModule (options : LoaderOptions) (resource : Resource) (name : String) : Emit.Module :=
  let flags := resource.flags
  let source := proxyRequest resource
  let signal :=
    if resource.isScript then Script.defaultExport resource.source resource.path else .unknown
  let plan : Emit.CombinedPlan :=
    { source
      cssRequest := Request.payloadRequest source flags name
      exportName := name
      includeModules := options.hasModules
      includeStable := flags.stableRequested
      emitDefault := Emit.emitsDefault resource.path flags.skipSyntheticDefault signal }
  plan.toModule

/-- The bridge module of a script. The styles that it imports are asked to use the name that the
request gave. -/
def bridgeScriptModule (resource : Resource) (name : String) : Emit.Module :=
  let styles := Script.styleModuleImports resource.source resource.path
  Emit.bridgeModule (proxyRequest resource) name styles (resource.flags.exportName == some name)

/-- Loads a resource by way of its sheet, from which `toModule` makes the module, given the text of
the stable classes if the request is about them. -/
def loadSheet (tree : FileTree) (commands : Compile.Commands) (options : LoaderOptions)
    (resource : Resource) (kind : Stable.ScriptKind) (name : String)
    (toModule : Extracted → Option String → Emit.Module) : Loading :=
  let flags := resource.flags
  let extraction := Extract.run tree commands (options.extractionFor flags) resource.path
  match extraction.result with
  | .error fault => { result := .error (.extraction fault), events := extraction.events }
  | .ok sheet =>
    let literal :=
      if flags.stableRequested then
        some (Stable.stableLiteral sheet.css (options.spaceFor flags) resource.path kind)
      else none
    { result := .ok ((toModule sheet (literal.map Stable.StableLiteral.text)).render name)
      dependencies := sheet.files
      warnings := literal.elim [] Stable.StableLiteral.warnings
      events := extraction.events }

/-- Warnings that come before those of a loading. -/
def warnBefore (warnings : List String) (loading : Loading) : Loading :=
  { loading with warnings := warnings ++ loading.warnings }

/-- Loads a resource. -/
def load (tree : FileTree) (commands : Compile.Commands) (options : LoaderOptions)
    (resource : Resource) : Loading :=
  if Path.isAbsolute resource.path then
    let name := options.exportNameFor resource.flags
    warnBefore (nameWarnings options resource)
      (match Route.ofResource options.mode resource with
      | .standard =>
        loadSheet tree commands options resource resource.scriptKind name
          (standardModule resource name)
      | .combined => { result := .ok ((combinedModule options resource name).render name) }
      | .bridgeScript =>
        { result := .ok ((bridgeScriptModule resource name).render name)
          warnings := typesWarnings resource }
      | .bridgeStyle =>
        warnBefore (combinedWarnings resource)
          (loadSheet tree commands options resource .plain name fun sheet literal =>
            Emit.bridgeStyleModule (proxyRequest resource) name sheet.css literal))
  else { result := .error (.relativePath resource.path) }

end Loader

end StyleGraph
