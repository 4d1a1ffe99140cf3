import StyleGraph.Proofs.Loader.Payload
import StyleGraph.Proofs.Request.Styles
import StyleGraph.Proofs.Walk.Visit

/-!
# Bridge modules and their styles

In bridge mode a combined script imports the text of each style that it refers to, by a request of
the style's own, and reads it under the name that the script's request resolves to. Loaded by that
request, the style exports its text under the name that *this* request resolves to.

The two names are the same where the script's name is forwarded, and where a style has no export
name in its own query (`load_bridge`). A style that has one keeps it, whatever the script reads
(`load_bridge_ownName`).
-/

set_option autoImplicit false

namespace StyleGraph

namespace LoaderOptions

variable (options : LoaderOptions) {flags : Request.Flags}

/-- Of the flags only the requested name decides what the CSS is called. -/
theorem exportNameFor_congr {other : Request.Flags} (same : flags.exportName = other.exportName) :
    options.exportNameFor flags = options.exportNameFor other := by
  rw [exportNameFor, exportNameFor, same]

/-- A requested name that can be declared is used. One that cannot falls back to the default. -/
theorem exportNameFor_of_exportName {name : String} (given : flags.exportName = some name)
    (valid : Emit.isIdentifier name = true) : options.exportNameFor flags = name := by
  rw [exportNameFor, given]
  exact if_pos valid

end LoaderOptions

namespace Loader

variable (options : LoaderOptions) (resource : Resource)

/-- The name that the styles of a script are asked to use: that of the script's request, if it can
be used. -/
def forwardedName : Option String :=
  let name := options.exportNameFor resource.flags
  if resource.flags.exportName == some name then some name else none

variable {options resource}

/-- When a name is forwarded at all it is the one the CSS is called in this module. -/
theorem eq_of_mem_forwardedName {name : String} (mem : name ∈ forwardedName options resource) :
    name = options.exportNameFor resource.flags := by
  unfold forwardedName at mem
  simp only at mem
  split at mem
  · cases mem
    rfl
  · cases mem

/-- A name that is not forwarded is the one that is used without any. -/
theorem exportNameFor_of_forwardedName (absent : forwardedName options resource = none) :
    options.exportNameFor resource.flags = options.defaultName := by
  unfold forwardedName at absent
  simp only [ite_eq_right_iff, reduceCtorEq, imp_false, beq_iff_eq] at absent
  unfold LoaderOptions.exportNameFor at absent ⊢
  cases given : resource.flags.exportName with
  | none => rfl
  | some name =>
    simp only [given] at absent ⊢
    split
    next valid => exact absurd (by rw [if_pos valid]) absent
    next => rfl

variable (options resource)

/-- **The name under which a style exports its text**: the forwarded one, unless the style's query
has an export name as it is written, and else that which the style's query resolves to. -/
theorem exportNameFor_cssRequest (style : String) :
    options.exportNameFor
        (.ofQuery (Request.queryFrom (Request.cssRequest style (forwardedName options resource)))) =
      if (forwardedName options resource).isSome &&
          !Request.hasKey (Request.queryFrom style).toList .exportName then
        options.exportNameFor resource.flags
      else options.exportNameFor (.ofQuery (Request.queryFrom style)) := by
  have valid := options.isIdentifier_exportNameFor resource.flags
  have plain : ∀ name ∈ forwardedName options resource, Request.IsPlain name.toList := by
    intro name mem
    rw [eq_of_mem_forwardedName mem]
    exact isPlain_of_isIdentifier valid
  have filled : ∀ name ∈ forwardedName options resource, name.toList ≠ [] := by
    intro name mem
    rw [eq_of_mem_forwardedName mem]
    exact Emit.toList_ne_nil_of_isIdentifier valid
  have asked := Request.exportName_ofQuery_cssRequest style plain filled
  cases written : Request.hasKey (Request.queryFrom style).toList .exportName with
  | true =>
    rw [written, if_pos rfl] at asked
    rw [Bool.not_true, Bool.and_false, if_neg Bool.false_ne_true]
    exact options.exportNameFor_congr asked
  | false =>
    rw [written, if_neg Bool.false_ne_true] at asked
    cases forwarded : forwardedName options resource with
    | none =>
      rw [forwarded, Option.orElse_eq_orElse, Option.orElse_eq_or, Option.none_or] at asked
      rw [Option.isSome_none, Bool.false_and, if_neg Bool.false_ne_true]
      exact options.exportNameFor_congr asked
    | some name =>
      obtain rfl := eq_of_mem_forwardedName forwarded
      rw [forwarded, Option.orElse_eq_orElse, Option.orElse_eq_or, Option.some_or] at asked
      rw [Option.isSome_some, Bool.not_false, Bool.and_true, if_pos rfl]
      exact options.exportNameFor_of_exportName asked valid

/-- A name in the query of the style stands against the forwarded one. -/
example :
    ({ css := { cwd := "/" } } : LoaderOptions).exportNameFor
        (.ofQuery (Request.queryFrom
          (Request.cssRequest "./a.module.css?exportName=css" (some "styles")))) = "css" := by
  decide +kernel

/-- A style that has no export name of its own exports its text as the script reads it. If the
script forwards its name the style gets it, and if not both have the name of the options. -/
theorem exportNameFor_cssRequest_of_none {style : String}
    (unwritten : Request.hasKey (Request.queryFrom style).toList .exportName = false)
    (unread : (Request.Flags.ofQuery (Request.queryFrom style)).exportName = none) :
    options.exportNameFor
        (.ofQuery (Request.queryFrom (Request.cssRequest style (forwardedName options resource)))) =
      options.exportNameFor resource.flags := by
  rw [exportNameFor_cssRequest, unwritten]
  cases forwarded : forwardedName options resource with
  | some name => rfl
  | none =>
    rw [exportNameFor_of_forwardedName forwarded]
    simp only [Option.isSome_none, Bool.false_and, Bool.false_eq_true, if_false,
      LoaderOptions.exportNameFor, unread]

/-! ## Loading -/

variable {options resource} (tree : FileTree) (commands : Compile.Commands)

/-- In bridge mode a combined script is answered with its bridge module. No style is read for it, so
there is nothing in it that could fail. -/
theorem result_load_bridgeScript (bridge : options.mode = .bridge)
    (script : resource.isScript = true) (combined : resource.flags.combined = true)
    (absolute : Path.isAbsolute resource.path = true) :
    let name := options.exportNameFor resource.flags
    (load tree commands options resource).result =
      .ok ((bridgeScriptModule resource name).render name) := by
  intro name
  have routed : Route.ofResource options.mode resource = .bridgeScript := by
    unfold Route.ofResource
    rw [bridge, script, combined]
  rw [load, if_pos absolute]
  simp only [routed, warnBefore]
  rfl

/-- In bridge mode a style is answered with its text and the class map of the other pipeline. The
class map is that of the ordinary pipeline for the same file, so the two pipelines agree on the
names. -/
theorem result_load_bridgeStyle (bridge : options.mode = .bridge)
    (style : resource.isScript = false) (absolute : Path.isAbsolute resource.path = true) :
    let name := options.exportNameFor resource.flags
    (load tree commands options resource).result =
      match (Extract.run tree commands (options.extractionFor resource.flags) resource.path).result
        with
      | .error fault => .error (.extraction fault)
      | .ok sheet =>
        let literal :=
          if resource.flags.stableRequested then
            some (Stable.stableLiteral sheet.css (options.spaceFor resource.flags) resource.path
              .plain).text
          else none
        .ok ((Emit.bridgeStyleModule (proxyRequest resource) name sheet.css literal).render
          name) := by
  intro name
  have routed : Route.ofResource options.mode resource = .bridgeStyle := by
    unfold Route.ofResource
    rw [bridge, style]
  rw [load, if_pos absolute]
  simp only [routed, warnBefore]
  exact result_loadSheet options tree commands _ _ _

/-- The module of a style has its text under one name. -/
theorem mem_statements_bridgeStyleModule (request name css : String) (literal : Option String)
    (other text : String) :
    .exportConst other (.str text) ∈ (Emit.bridgeStyleModule request name css literal).statements ↔
      other = name ∧ text = css := by
  cases literal <;> simp [Emit.bridgeStyleModule]

/-- **What a bridge module reads from a style, and what the style exports.** Each style that a
combined script imports is asked for by a request of its own, and the bridge module reads one name
from it, which the script's request resolves to. A style loaded with the query of its request, which
is the one that a bundler takes unless it holds a `!`, fails only if the extraction does, and has
its text under one name. That name is the one which is read exactly if the script's name is
forwarded to a style whose query has none as it is written, or the style's own query resolves to the
same name; so always if the style has no export name of its own. -/
theorem load_bridge (bridge : options.mode = .bridge) (script : resource.isScript = true)
    (combined : resource.flags.combined = true) (absolute : Path.isAbsolute resource.path = true) :
    let name := options.exportNameFor resource.flags
    let module := bridgeScriptModule resource name
    (load tree commands options resource).result = .ok (module.render name) ∧
      ∀ item ∈ module.imports, (∀ read, read ∈ module.reads item.name ↔ read = name) ∧
        ∃ style ∈ Script.styleModuleImports resource.source resource.path,
          item.specifier = Request.cssRequest style (forwardedName options resource) ∧
          ('!' ∉ (Text.cutQuery item.specifier.toList).2 →
            Request.queryOf item.specifier = Request.queryFrom item.specifier) ∧
          ∀ payload : Resource, payload.query = Request.queryFrom item.specifier →
            payload.isScript = false → Path.isAbsolute payload.path = true →
            let exported := options.exportNameFor payload.flags
            (match (Extract.run tree commands (options.extractionFor payload.flags)
                payload.path).result with
              | .error fault =>
                (load tree commands options payload).result = .error (.extraction fault)
              | .ok sheet => ∃ styleModule : Emit.Module,
                (load tree commands options payload).result =
                    .ok (styleModule.render exported) ∧
                  ∀ other text, .exportConst other (.str text) ∈ styleModule.statements ↔
                    other = exported ∧ text = sheet.css) ∧
              (exported = name ↔
                ((forwardedName options resource).isSome = true ∧
                  Request.hasKey (Request.queryFrom style).toList .exportName = false) ∨
                options.exportNameFor (.ofQuery (Request.queryFrom style)) = name) ∧
              (Request.hasKey (Request.queryFrom style).toList .exportName = false →
                (Request.Flags.ofQuery (Request.queryFrom style)).exportName = none →
                exported = name) := by
  intro name module
  refine ⟨result_load_bridgeScript tree commands bridge script combined absolute, ?_⟩
  intro item mem
  refine ⟨Emit.mem_reads_bridgeModule mem, ?_⟩
  obtain ⟨-, style, listed, asked⟩ := Emit.exists_style_of_mem_imports mem
  have specifier : item.specifier = Request.cssRequest style (forwardedName options resource) :=
    asked
  refine ⟨style, listed, specifier, Request.queryOf_eq_queryFrom, ?_⟩
  intro payload query plain payloadAbsolute exported
  have named : exported = options.exportNameFor (.ofQuery
      (Request.queryFrom (Request.cssRequest style (forwardedName options resource)))) := by
    rw [← specifier, ← query]
    rfl
  refine ⟨?_, ?_, ?_⟩
  · have loaded := result_load_bridgeStyle tree commands bridge plain payloadAbsolute
    cases extracted :
        (Extract.run tree commands (options.extractionFor payload.flags) payload.path).result with
    | error fault => rwa [extracted] at loaded
    | ok sheet =>
      rw [extracted] at loaded
      exact ⟨_, loaded, mem_statements_bridgeStyleModule _ _ _ _⟩
  · -- a name is appended to a specifier only if it has none, and then it is the one
    rw [named, exportNameFor_cssRequest]
    split
    next forwarded =>
      simp only [Bool.and_eq_true, Bool.not_eq_true'] at forwarded
      exact iff_of_true rfl (.inl forwarded)
    next kept =>
      simp only [Bool.and_eq_true, Bool.not_eq_true'] at kept
      exact (or_iff_right kept).symm
  · intro unwritten unread
    rw [named]
    exact exportNameFor_cssRequest_of_none options resource unwritten unread

/-- A combined script that gives the styles a name, and the styles that it refers to. -/
def namedCard (source : String) : Resource where
  path := "/app/card.tsx"
  query := "?knighted-css&combined&exportName=styles"
  source := source
  rootDirectory := "/app"

/-- The statement at a bridged sheet that asks for a name of its own. -/
theorem load_bridge_namedCard :
    let options : LoaderOptions := { mode := .bridge, css := { cwd := "/app" } }
    let resource := namedCard "import './a.module.css?v=1';\n"
    options.mode = .bridge ∧ resource.isScript = true ∧ resource.flags.combined = true ∧
      Path.isAbsolute resource.path = true ∧
      (bridgeScriptModule resource "styles").imports =
        [⟨"__knightedStyle0", "./a.module.css?v=1&knighted-css&exportName=styles"⟩] ∧
      ∀ payload : Resource, payload.query = "?v=1&knighted-css&exportName=styles" →
        payload.isScript = false → Path.isAbsolute payload.path = true →
        options.exportNameFor payload.flags = "styles" := by
  intro options resource
  have script : resource.isScript = true := by decide +kernel
  have combined : resource.flags.combined = true := by decide +kernel
  have absolute : Path.isAbsolute resource.path = true := by decide +kernel
  have named : options.exportNameFor resource.flags = "styles" := by decide +kernel
  have listed : (bridgeScriptModule resource "styles").imports =
      [⟨"__knightedStyle0", "./a.module.css?v=1&knighted-css&exportName=styles"⟩] := by
    decide +kernel
  refine ⟨rfl, script, combined, absolute, listed, ?_⟩
  intro payload query plain payloadAbsolute
  have reads := @load_bridge options resource default default rfl script
    combined absolute
  rw [named] at reads
  obtain ⟨-, style, asked, -, -, loads⟩ := reads.2 _ (listed ▸ List.mem_singleton_self _)
  have only : style = "./a.module.css?v=1" := by
    have found : Script.styleModuleImports resource.source resource.path =
        ["./a.module.css?v=1"] := by decide +kernel
    rw [found] at asked
    exact List.mem_singleton.mp asked
  have taken : payload.query =
      Request.queryFrom "./a.module.css?v=1&knighted-css&exportName=styles" := by
    rw [query]
    decide +kernel
  have agrees := (loads payload taken plain payloadAbsolute).2.2
  subst only
  exact agrees (by decide +kernel) (by decide +kernel)

/-! ## A style with an export name of its own -/

/-- A project of one style. -/
def cardTree : FileTree where
  files := [(["app", "a.module.css"], .text ".a { color: red }\n")]

/-- The style, as a script asks for it that refers to it by a name of its own. -/
def ownNamedStyle : Resource where
  path := "/app/a.module.css"
  query := "?exportName=css&knighted-css"
  rootDirectory := "/app"

/-- The entry of the tree used in the runs below is found in the project's directory. -/
theorem resolveEntry_cardTree :
    Extract.resolveEntry (Extract.project cardTree (fun _ => none) { cwd := "/app" }) "/app"
      "/app/a.module.css" = ([.resolved "/app/a.module.css" "/app"], .ok "/app/a.module.css") := by
  rfl

/-- The walk comes to the one style. -/
theorem walkFrom_cardTree :
    Walk.walkFrom (Extract.project cardTree (fun _ => none) { cwd := "/app" })
      "/app/a.module.css" { events := [.resolved "/app/a.module.css" "/app"] } =
        { state :=
            { visited := ["/app/a.module.css"]
              files := ["/app/a.module.css"]
              compiled := [("/app/a.module.css", ".a { color: red }\n")]
              events := [.resolved "/app/a.module.css" "/app"] } } := by
  refine Walk.run_eq_of_runWithin 5 ?_
  rfl

/-- What extraction makes of that tree, evaluated once for the runs that need it. -/
private theorem run_cardTree :
    (Extract.run cardTree (fun _ => none) { cwd := "/app" } "/app/a.module.css").result =
      .ok { css := ".a { color: red }\n", files := ["/app/a.module.css"], modules := none } := by
  unfold Extract.run
  simp only [resolveEntry_cardTree, walkFrom_cardTree]
  rfl

/-- The script asks for `styles`, and reads it from a style that exports `css`. The flags of the
style's own request go before the name that the bridge appends, so the export that is read is not
there. -/
theorem load_bridge_ownName :
    let options : LoaderOptions := { mode := .bridge, css := { cwd := "/app" } }
    let script := namedCard "import './a.module.css?exportName=css';\n"
    let module := bridgeScriptModule script "styles"
    let styleModule :=
      Emit.bridgeStyleModule (proxyRequest ownNamedStyle) "css" ".a { color: red }\n" none
    (load cardTree (fun _ => none) options script).result = .ok (module.render "styles") ∧
      module.imports =
        [⟨"__knightedStyle0", "./a.module.css?exportName=css&knighted-css"⟩] ∧
      "styles" ∈ module.reads "__knightedStyle0" ∧
      Request.queryFrom "./a.module.css?exportName=css&knighted-css" = ownNamedStyle.query ∧
      (load cardTree (fun _ => none) options ownNamedStyle).result =
        .ok (styleModule.render "css") ∧
      ∀ css, .exportConst "styles" (.str css) ∉ styleModule.statements := by
  intro options script module styleModule
  have scriptName : options.exportNameFor script.flags = "styles" := by decide +kernel
  have styleName : options.exportNameFor ownNamedStyle.flags = "css" := by decide +kernel
  have imported : module.imports =
      [⟨"__knightedStyle0", "./a.module.css?exportName=css&knighted-css"⟩] := by decide +kernel
  refine ⟨?_, imported, ?_, by decide +kernel, ?_, ?_⟩
  · have loaded := @result_load_bridgeScript options script cardTree
      (fun _ => none) rfl (by decide +kernel) (by decide +kernel) (by decide +kernel)
    rwa [scriptName] at loaded
  · have mem : ⟨"__knightedStyle0", "./a.module.css?exportName=css&knighted-css"⟩ ∈
        module.imports := by
      rw [imported]
      exact List.mem_singleton_self _
    have reads := Emit.mem_reads_bridgeModule mem "styles"
    exact reads.mpr rfl
  · have loaded := @result_load_bridgeStyle options ownNamedStyle cardTree
      (fun _ => none) rfl (by decide +kernel) (by decide +kernel)
    have plain : options.extractionFor ownNamedStyle.flags = { cwd := "/app" } := by
      unfold LoaderOptions.extractionFor
      rw [if_neg (by decide +kernel)]
    have unasked : ownNamedStyle.flags.stableRequested = false := by decide +kernel
    rw [plain, styleName] at loaded
    have path : ownNamedStyle.path = "/app/a.module.css" := rfl
    rw [path, run_cardTree, unasked] at loaded
    exact loaded
  · intro css mem
    obtain ⟨same, -⟩ := (mem_statements_bridgeStyleModule _ _ _ _ _ _).mp mem
    exact absurd same (by decide)

end Loader

end StyleGraph
