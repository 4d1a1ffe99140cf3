import StyleGraph.Loader.Basic
import StyleGraph.Proofs.Emit.Linkage
import StyleGraph.Proofs.Request.Proxy
import StyleGraph.Proofs.Stable.Literal

/-!
# Combined modules and their payloads

A combined module imports the style text of its resource by a request of its own. Read back, that
request has the flags that matter for the text (`ofQuery_stylesRequest`), gives the export the same
name without a warning, and is answered in the standard way; so what the combined module reads from
the payload is there (`load_payload`).

A bundler takes for the query of a request what begins at the first `?` behind the last `!`. So a
path must hold neither, and a query no `!`, unless the request was given as it was written.
-/

set_option autoImplicit false

namespace StyleGraph

namespace LoaderOptions

/-- The name used when a request gives none can always be declared: configuration has checked it,
and the built-in one is an identifier. -/
theorem isIdentifier_defaultName (options : LoaderOptions) :
    Emit.isIdentifier options.defaultName = true := by
  unfold defaultName
  split
  next valid => exact valid
  next => decide +kernel

/-- The name of the export with the styles can be exported. -/
theorem isIdentifier_exportNameFor (options : LoaderOptions) (flags : Request.Flags) :
    Emit.isIdentifier (options.exportNameFor flags) = true := by
  unfold exportNameFor
  split
  · split
    next valid => exact valid
    next => exact options.isIdentifier_defaultName
  · exact options.isIdentifier_defaultName

end LoaderOptions

namespace Loader

/-! ## Standard modules -/

/-- The plain payload exports the CSS under the name it was asked to use, whatever else the request
adds to it. -/
theorem exports_standardModule (resource : Resource) (name : String) (sheet : Extracted)
    (literal : Option String) : (standardModule resource name sheet literal).Exports name :=
  ⟨.exportConst name (.str sheet.css), by simp [standardModule], Emit.Stmt.exports_exportConst _ _⟩

/-- The text of the stable classes is an export. It is put into the module as text, so the export is
found at the beginning of that text. -/
theorem exports_standardModule_stable (resource : Resource) (name : String) (sheet : Extracted)
    (map : Stable.StableMap) (kind : Stable.ScriptKind) :
    (standardModule resource name sheet (some (Stable.literalText map kind))).Exports
      Emit.stableExport := by
  obtain ⟨rest, written⟩ : ∃ rest, Stable.literalText map kind =
      "export const stableSelectors = Object.freeze(" ++ rest := by
    rw [Stable.literalText_eq]
    exact ⟨_, String.append_assoc.trans String.append_assoc⟩
  have begins : ("export const " ++ Emit.stableExport ++ " = ").toList <+:
      "export const stableSelectors = Object.freeze(".toList := by decide +kernel
  refine ⟨.raw (Stable.literalText map kind), by simp [standardModule], Emit.Stmt.exports_raw ?_⟩
  have joined : ("export const stableSelectors = Object.freeze(" ++ rest).toList =
      "export const stableSelectors = Object.freeze(".toList ++ rest.toList :=
    String.toList_append
  rw [written, joined]
  exact begins.trans (List.prefix_append _ _)

/-- **What a combined module reads from a payload is exported there**, if the payload is asked for
the stable classes when the combined module is. -/
theorem exports_of_mem_reads (options : LoaderOptions) {resource : Resource} {name read : String}
    (payload : Resource) (sheet : Extracted) (map : Stable.StableMap) (kind : Stable.ScriptKind)
    (mem : read ∈ (combinedModule options resource name).reads Emit.CombinedPlan.cssAlias) :
    (standardModule payload name sheet (if resource.flags.stableRequested then
      some (Stable.literalText map kind) else none)).Exports read := by
  have reads : (combinedModule options resource name).reads Emit.CombinedPlan.cssAlias =
      name :: if resource.flags.stableRequested then [Emit.stableExport] else [] :=
    Emit.CombinedPlan.reads_toModule _
  rw [reads] at mem
  rcases List.mem_cons.mp mem with rfl | mem
  · exact exports_standardModule payload read sheet _
  · split at mem
    next stable =>
      rw [List.mem_singleton.mp mem, if_pos stable]
      exact exports_standardModule_stable payload name sheet map kind
    next => exact absurd mem List.not_mem_nil

/-! ## What a payload request is read as -/

/-- A name that can be exported needs no escapes. -/
theorem isPlain_of_isIdentifier {name : String} (valid : Emit.isIdentifier name = true) :
    Request.IsPlain name.toList := by
  intro c special
  refine Emit.not_mem_of_isIdentifier valid ?_
  simp only [List.mem_cons, List.not_mem_nil, or_false] at special
  rcases special with rfl | rfl | rfl <;> decide

/-- The request by which the combined module of a resource imports the style text. -/
def stylesRequest (options : LoaderOptions) (resource : Resource) : String :=
  Request.payloadRequest (proxyRequest resource) resource.flags
    (options.exportNameFor resource.flags)

/-- What matters for a style text that was asked for by a combined module. -/
def stylesFlags (options : LoaderOptions) (resource : Resource) : Request.Flags :=
  { marker := true
    combined := false
    typesRequested := resource.flags.typesRequested
    stableNamespace := resource.flags.stableNamespace
    exportName := resource.flags.exportName.map fun _ => options.exportNameFor resource.flags
    sanitized := Request.queryOf (proxyRequest resource) }

variable (options : LoaderOptions) {resource : Resource}

/-- **The style text is asked for with what it depends on**, and with what else the original is
asked for. -/
theorem ofQuery_stylesRequest
    (pathPlain : '!' ∉ resource.path.toList ∧ '?' ∉ resource.path.toList)
    (queryPlain : '!' ∉ resource.query.toList) :
    Request.Flags.ofQuery (Request.queryOf (stylesRequest options resource)) =
      stylesFlags options resource := by
  obtain ⟨parts, written⟩ := Request.exists_proxyRequest_text resource.path
    resource.rawRequest resource.rootDirectory resource.query pathPlain.2 queryPlain
  have valid := options.isIdentifier_exportNameFor resource.flags
  rw [stylesRequest, stylesFlags, proxyRequest, written]
  exact Request.ofQuery_queryOf_payloadRequest parts
    (Request.Flags.nonblank_ofQuery resource.query) (isPlain_of_isIdentifier valid)
    (Emit.toList_ne_nil_of_isIdentifier valid)

/-- The original is asked for nothing that this library recognizes. -/
theorem sanitized_proxyRequest
    (pathPlain : '!' ∉ resource.path.toList ∧ '?' ∉ resource.path.toList)
    (queryPlain : '!' ∉ resource.query.toList) :
    Request.Query.sanitize (Request.queryOf (proxyRequest resource)) =
      Request.queryOf (proxyRequest resource) := by
  obtain ⟨parts, written⟩ := Request.exists_proxyRequest_text resource.path
    resource.rawRequest resource.rootDirectory resource.query pathPlain.2 queryPlain
  have kept : parts.sanitized.query = Request.Query.sanitizeChars parts.query := rfl
  rw [proxyRequest, written, Request.Parts.queryOf_text, kept, Request.Query.sanitize,
    String.toList_ofList, Request.Query.sanitizeChars_sanitizeChars]

/-- The name that was resolved is resolved to itself. -/
theorem exportNameFor_stylesFlags (resource : Resource) :
    options.exportNameFor (stylesFlags options resource) =
      options.exportNameFor resource.flags := by
  have valid := options.isIdentifier_exportNameFor resource.flags
  cases named : resource.flags.exportName with
  | none => simp only [LoaderOptions.exportNameFor, stylesFlags, named, Option.map_none]
  | some name =>
    have given : (stylesFlags options resource).exportName =
        some (options.exportNameFor resource.flags) := by
      simp only [stylesFlags, named, Option.map_some]
    rw [LoaderOptions.exportNameFor, given]
    exact if_pos valid

/-- The name that was resolved is no reason to warn. -/
theorem nameWarnings_stylesFlags {payload : Resource}
    (flags : payload.flags = stylesFlags options resource) : nameWarnings options payload = [] := by
  have valid := options.isIdentifier_exportNameFor resource.flags
  rw [nameWarnings, flags, stylesFlags]
  cases resource.flags.exportName with
  | none => rfl
  | some name => exact if_pos valid

/-! ## Loading -/

variable (tree : FileTree) (commands : Compile.Commands)

/-- A resource that is loaded by way of its sheet is answered with the module of the sheet, unless
the extraction fails. -/
theorem result_loadSheet (kind : Stable.ScriptKind) (name : String)
    (toModule : Extracted → Option String → Emit.Module) :
    (loadSheet tree commands options resource kind name toModule).result =
      match (Extract.run tree commands (options.extractionFor resource.flags) resource.path).result
        with
      | .error fault => .error (.extraction fault)
      | .ok sheet =>
        let literal :=
          if resource.flags.stableRequested then
            some (Stable.stableLiteral sheet.css (options.spaceFor resource.flags) resource.path
              kind).text
          else none
        .ok ((toModule sheet literal).render name) := by
  delta loadSheet
  dsimp only
  cases (Extract.run tree commands (options.extractionFor resource.flags) resource.path).result with
  | error fault => rfl
  | ok sheet => cases resource.flags.stableRequested <;> rfl

/-- In standard mode a resource that is not combined is answered with the original and its
styles. -/
theorem result_load_standard (standard : options.mode = .standard)
    (plain : resource.flags.combined = false) (absolute : Path.isAbsolute resource.path = true) :
    let name := options.exportNameFor resource.flags
    (load tree commands options resource).result =
      match (Extract.run tree commands (options.extractionFor resource.flags) resource.path).result
        with
      | .error fault => .error (.extraction fault)
      | .ok sheet =>
        let literal :=
          if resource.flags.stableRequested then
            some (Stable.stableLiteral sheet.css (options.spaceFor resource.flags) resource.path
              resource.scriptKind).text
          else none
        .ok ((standardModule resource name sheet literal).render name) := by
  intro name
  have routed : Route.ofResource options.mode resource = .standard := by
    unfold Route.ofResource
    rw [standard, plain]
  rw [load, if_pos absolute]
  simp only [routed, warnBefore]
  exact result_loadSheet options tree commands _ _ _

/-- In standard mode a combined resource is answered with its combined module. -/
theorem result_load_combined (standard : options.mode = .standard)
    (combined : resource.flags.combined = true) (absolute : Path.isAbsolute resource.path = true) :
    let name := options.exportNameFor resource.flags
    (load tree commands options resource).result =
      .ok ((combinedModule options resource name).render name) := by
  intro name
  have routed : Route.ofResource options.mode resource = .combined := by
    unfold Route.ofResource
    rw [standard, combined]
  rw [load, if_pos absolute]
  simp only [routed, warnBefore]
  rfl

/-- **A combined module and its payload agree.** Whatever the written request is, the request by
which a combined module imports the style text is read as one that is not combined, with the types,
the namespace and the resolved export name of the resource, and with no other tokens than those that
the request for the original has; the name is no reason to warn. If the resource can be loaded,
which asks for an absolute path, a payload that is loaded by the request fails only if the
extraction does, and exports all that the combined module reads from it. -/
theorem load_payload (standard : options.mode = .standard)
    (combined : resource.flags.combined = true)
    (pathPlain : '!' ∉ resource.path.toList ∧ '?' ∉ resource.path.toList)
    (queryPlain : '!' ∉ resource.query.toList)
    (source : String) (rawRequest : Option String) (rootDirectory : String) :
    let name := options.exportNameFor resource.flags
    let module := combinedModule options resource name
    let request := stylesRequest options resource
    let payload : Resource :=
      { path := resource.path, query := Request.queryOf request, source, rawRequest, rootDirectory }
    ⟨Emit.CombinedPlan.cssAlias, request⟩ ∈ module.imports ∧
      payload.flags = stylesFlags options resource ∧
      payload.flags.stableRequested = resource.flags.stableRequested ∧
      Request.Query.sanitize (Request.queryOf (proxyRequest resource)) = payload.flags.sanitized ∧
      options.exportNameFor payload.flags = name ∧
      nameWarnings options payload = [] ∧
      (Path.isAbsolute resource.path = true →
        (load tree commands options resource).result = .ok (module.render name) ∧
          match (Extract.run tree commands (options.extractionFor resource.flags)
            resource.path).result with
          | .error fault => (load tree commands options payload).result = .error (.extraction fault)
          | .ok sheet => ∃ literal,
            (load tree commands options payload).result =
                .ok ((standardModule payload name sheet literal).render name) ∧
              ∀ read ∈ module.reads Emit.CombinedPlan.cssAlias,
                (standardModule payload name sheet literal).Exports read) := by
  intro name module request payload
  have flags : payload.flags = stylesFlags options resource :=
    ofQuery_stylesRequest options pathPlain queryPlain
  have named : options.exportNameFor payload.flags = name := by
    rw [flags, exportNameFor_stylesFlags]
  have requested : payload.flags.stableRequested = resource.flags.stableRequested := by
    rw [flags]
    rfl
  have kept : Request.Query.sanitize (Request.queryOf (proxyRequest resource)) =
      payload.flags.sanitized := by
    rw [flags, sanitized_proxyRequest pathPlain queryPlain, stylesFlags]
  refine ⟨List.mem_cons_of_mem _ List.mem_cons_self, flags, requested, kept, named,
    nameWarnings_stylesFlags options flags, fun absolute =>
      ⟨result_load_combined options tree commands standard combined absolute, ?_⟩⟩
  -- only the flags for stable names count for an extraction, and they are the same
  have extraction : options.extractionFor payload.flags = options.extractionFor resource.flags := by
    rw [flags]
    rfl
  have plain : payload.flags.combined = false := by rw [flags, stylesFlags]
  have loaded := result_load_standard options tree commands standard plain absolute
  rw [extraction, named, requested] at loaded
  cases extracted :
      (Extract.run tree commands (options.extractionFor resource.flags) resource.path).result with
  | error fault =>
    rw [extracted] at loaded
    exact loaded
  | ok sheet =>
    rw [extracted] at loaded
    exact ⟨_, loaded, fun read mem => exports_of_mem_reads options payload sheet _ _ mem⟩

/-- A style behind another processor that has a query too. Its namespace has to be escaped, its
export name cannot be used, and one of its other tokens holds a `?`. -/
def escapedCard : Resource where
  path := "/app/src/card.css"
  query := "?knighted-css&combined&types&stableNamespace=a%20b%26c&exportName=2x&v=1"
  rawRequest := some "text?lang=en!./card.css?knighted-css&combined&v=1&w=?2"
  rootDirectory := "/app"

/-- The statement at a request whose flags are percent-encoded, with options that leave everything
to the defaults. -/
theorem load_payload_escapedCard :
    let options : LoaderOptions := { css := { cwd := "/app" } }
    options.mode = .standard ∧ escapedCard.flags.combined = true ∧
      Path.isAbsolute escapedCard.path = true ∧
      ('!' ∉ escapedCard.path.toList ∧ '?' ∉ escapedCard.path.toList) ∧
      '!' ∉ escapedCard.query.toList ∧
      stylesRequest options escapedCard = "text?lang=en!./card.css?v=1&w=?2" ++
        "&knighted-css&types&stableNamespace=a%20b%26c&exportName=knightedCss" ∧
      ∀ source rawRequest rootDirectory,
        let payload : Resource :=
          { path := escapedCard.path
            query := Request.queryOf (stylesRequest options escapedCard)
            source, rawRequest, rootDirectory }
        payload.flags = stylesFlags options escapedCard ∧
          options.exportNameFor payload.flags = options.exportNameFor escapedCard.flags ∧
          nameWarnings options payload = [] := by
  intro options
  have combined : escapedCard.flags.combined = true := by decide +kernel
  have absolute : Path.isAbsolute escapedCard.path = true := by decide +kernel
  have pathPlain : '!' ∉ escapedCard.path.toList ∧ '?' ∉ escapedCard.path.toList := by
    decide +kernel
  have queryPlain : '!' ∉ escapedCard.query.toList := by decide +kernel
  refine ⟨rfl, combined, absolute, pathPlain, queryPlain, by decide +kernel, ?_⟩
  intro source rawRequest rootDirectory payload
  have agrees := load_payload options default default rfl combined pathPlain queryPlain source
    rawRequest rootDirectory
  exact ⟨agrees.2.1, agrees.2.2.2.2.1, agrees.2.2.2.2.2.1⟩

end Loader

end StyleGraph
