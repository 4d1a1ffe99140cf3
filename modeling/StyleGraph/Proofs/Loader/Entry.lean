import StyleGraph.Loader.Basic
import StyleGraph.Proofs.Extract.Tracking
import StyleGraph.Proofs.Resolve.Candidate
import StyleGraph.Proofs.Specifier

/-!
# Where a loading begins

A loader hands the path of its resource over as the entry of an extraction, and an entry is resolved
like any specifier. So although the resource is a file, other files may be tried before it: the
typed sources that a script's extension stands for, and, when the extension of the resource is not
in effect, its path with each extension added. `load_walks_from` says for every tree, resource and
options which file the walk begins at, and that it is the resource just when none of its rivals is a
file. `load_typed_sibling` is a loading that gives the text of one file and the styles of another.
-/

set_option autoImplicit false

namespace StyleGraph

open Resolve (Resolver Resolution rivals firstFile? effectiveExtensions)

/-- **A path that is a file is resolved to its first rival that is a file, else to itself.** -/
theorem Resolve.Resolver.resolve_of_isFile (resolver : Resolver) {path : String}
    (plain : '?' ∉ path.toList) (file : resolver.tree.isFile path = true)
    (importer directory : String) :
    resolver.resolve path importer directory =
      .found ((firstFile? resolver.tree (rivals resolver.extensions (Path.clean path))).getD
        (Path.clean path)) := by
  obtain ⟨content, found⟩ := FileTree.exists_lookup_of_isFile file
  have absolute := FileTree.isAbsolute_of_lookup found
  have cleanFile : resolver.tree.isFile (Path.clean path) = true := by
    unfold FileTree.isFile
    rw [FileTree.lookup_clean found]
  have nonempty : path.isEmpty = false := by
    rw [← Bool.not_eq_true, String.isEmpty_iff]
    rintro rfl
    cases absolute
  unfold Resolver.resolve
  simp only [Specifier.splitQuery_of_not_mem plain, nonempty, Bool.false_eq_true, if_false,
    Specifier.classify_of_isAbsolute absolute, Resolve.tryCandidate?_of_isFile cleanFile]

namespace Extract

/-- An extraction whose entry is found is the walk from there, finished. So what an extraction does
can be read off its walk. -/
theorem run_of_resolveEntry {tree : FileTree} {commands : Compile.Commands}
    {options : ExtractOptions} {entry path : String} {events : List Walk.Event}
    (resolved : resolveEntry (project tree commands options) options.cwd entry =
      (events, .ok path)) :
    run tree commands options entry =
      let outcome := Walk.walkFrom (project tree commands options) path { events }
      { events := outcome.state.events
        result :=
          match outcome.fault with
          | some fault => .error fault
          | none => finished options outcome.state } := by
  unfold run
  dsimp only
  split
  next failed =>
    rw [resolved] at failed
    cases failed
  next found =>
    rw [resolved] at found
    cases found
    rfl

end Extract

namespace Loader

/-- A request changes nothing but the stable variants of the extraction. -/
theorem exists_extractionFor_eq (options : LoaderOptions) (flags : Request.Flags) :
    ∃ stable, options.extractionFor flags = { options.css with stable } := by
  unfold LoaderOptions.extractionFor
  split
  · exact ⟨_, rfl⟩
  · exact ⟨options.css.stable, rfl⟩

/-- The plain answer to a request comes out of one extraction, whose entry is the path of the
resource. -/
theorem load_of_standard {options : LoaderOptions} {tree : FileTree} {commands : Compile.Commands}
    {resource : Resource} (standard : Route.ofResource options.mode resource = .standard)
    (absolute : Path.isAbsolute resource.path = true) :
    let extraction :=
      Extract.run tree commands (options.extractionFor resource.flags) resource.path
    let loading := load tree commands options resource
    loading.events = extraction.events ∧
      ∀ text, loading.result = .ok text →
        ∃ sheet, extraction.result = .ok sheet ∧ loading.dependencies = sheet.files := by
  intro extraction loading
  have loaded : loading = warnBefore (nameWarnings options resource)
      (loadSheet tree commands options resource resource.scriptKind
        (options.exportNameFor resource.flags)
        (standardModule resource (options.exportNameFor resource.flags))) := by
    simp only [loading, load, absolute, if_true, standard]
  rw [loaded]
  unfold loadSheet warnBefore
  simp only
  cases found : (Extract.run tree commands (options.extractionFor resource.flags)
      resource.path).result with
  | error fault => exact ⟨rfl, fun text answered => nomatch answered⟩
  | ok sheet => exact ⟨rfl, fun _ _ => ⟨sheet, rfl, rfl⟩⟩

/-- The entry of an extraction for a resource that is a file is its first rival that is a file, else
the resource: it is resolved like a specifier, although it is known to be there. -/
theorem resolveEntry_of_isFile (options : LoaderOptions) (tree : FileTree)
    (commands : Compile.Commands) (flags : Request.Flags) {path : String}
    (builtin : options.css.resolve = none) (plain : '?' ∉ path.toList)
    (file : tree.isFile path = true) :
    let css := options.extractionFor flags
    Extract.resolveEntry (Extract.project tree commands css) css.cwd path =
      ([.resolved path css.cwd],
        .ok (Path.clean ((firstFile? tree
          (rivals (effectiveExtensions options.css.extensions) (Path.clean path))).getD
            (Path.clean path)))) := by
  intro css
  obtain ⟨stable, same⟩ := exists_extractionFor_eq options flags
  have answer : (Extract.project tree commands css).resolve path css.cwd =
      .found ((firstFile? tree
        (rivals (effectiveExtensions options.css.extensions) (Path.clean path))).getD
          (Path.clean path)) := by
    simp only [css, same, Extract.project, builtin, Option.getD_none]
    exact Resolver.resolve_of_isFile
      (Resolver.ofOptions tree options.css.extensions options.css.aliases options.css.cwd)
      plain file _ _
  simp only [Extract.resolveEntry, answer]

/-- **A loading walks from the first rival of its resource that is a file, else from the resource.**
Its dependencies are the files of that walk. The walk begins at the resource just when no rival is a
file, and so it does whenever the extension of the resource is in effect and stands for no
others. -/
theorem load_walks_from (options : LoaderOptions) (tree : FileTree)
    (commands : Compile.Commands) (resource : Resource) (builtin : options.css.resolve = none)
    (standard : Route.ofResource options.mode resource = .standard)
    (plain : '?' ∉ resource.path.toList) (file : tree.isFile resource.path = true) :
    let css := options.extractionFor resource.flags
    let project := Extract.project tree commands css
    let extensions := effectiveExtensions options.css.extensions
    let path := Path.clean resource.path
    let entry := Path.clean ((firstFile? tree (rivals extensions path)).getD path)
    let walk := Walk.walkFrom project entry { events := [.resolved resource.path css.cwd] }
    let loading := load tree commands options resource
    (Extract.resolveEntry project css.cwd resource.path).2 = .ok entry ∧
      loading.events = walk.state.events ∧
      (∀ text, loading.result = .ok text →
        walk.fault = none ∧ loading.dependencies = walk.state.files) ∧
      ((∀ extension ∈ options.css.extensions, '/' ∉ extension.toList) →
        (entry = path ↔ ∀ rival ∈ rivals extensions path, tree.isFile rival = false)) ∧
      ∀ extension, Path.extension? path = some extension → "." ++ extension ∈ extensions →
        (∀ listed ∈ Resolve.extensionAliases, listed.1 ≠ "." ++ extension) → entry = path := by
  intro css project extensions path entry walk loading
  obtain ⟨content, found⟩ := FileTree.exists_lookup_of_isFile file
  have cleanFile : tree.isFile path = true := by
    unfold FileTree.isFile
    rw [FileTree.lookup_clean found]
  obtain ⟨texts, nonempty, named, written⟩ := FileTree.exists_rooted_of_isFile_clean cleanFile
  have resolved := resolveEntry_of_isFile options tree commands resource.flags builtin plain file
  have extraction := Extract.run_of_resolveEntry resolved
  obtain ⟨events, succeeds⟩ := @load_of_standard options tree commands resource standard
    (FileTree.isAbsolute_of_lookup found)
  refine ⟨congrArg Prod.snd resolved, ?_, fun text answered => ?_, fun slashless => ?_, ?_⟩
  · rw [events, extraction]
  · obtain ⟨sheet, extracted, dependencies⟩ := succeeds text answered
    rw [extraction] at extracted
    simp only at extracted
    split at extracted
    · cases extracted
    next unfailed =>
      exact ⟨unfailed, dependencies.trans (Extract.files_of_finished extracted)⟩
  · have asItself := Resolve.clean_first_rival_eq_iff tree nonempty named
      (Resolve.slash_not_mem_of_effectiveExtensions slashless)
    rwa [← show path = Path.rooted texts from written] at asItself
  · intro extension own inEffect unaliased
    -- the resource is the first of its candidates, so nothing goes before it
    have unrivalled : rivals extensions path = [] :=
      Resolve.rivals_of_listed own unaliased inEffect
    have cleaned : Path.clean path = path := by
      rw [show path = Path.rooted texts from written, Path.clean_rooted named]
    simp only [entry, unrivalled]
    exact cleaned

/-! ## Scripts with twins -/

/-- Two scripts, each with a file beside it whose name begins with the name of the script: a typed
source of the one, a style named after the other. -/
def twinTree : FileTree where
  files :=
    [(["a.js"], .text "import './a.css';\n"), (["a.ts"], .text "import './b.css';\n"),
      (["a.css"], .text ".a { color: red }\n"), (["b.css"], .text ".b { color: blue }\n"),
      (["c.tsx"], .text "import './a.css';\n"), (["c.tsx.css"], .text ".c { color: lime }\n")]

/-- Styles are the only files that an import may name without their extension. -/
def twinOptions : LoaderOptions where
  css := { cwd := "/", extensions := [".css"] }

/-- A request for the styles of a script. -/
def twinScript : Resource where
  path := "/a.js"
  query := "?knighted-css"
  source := "import './a.css';\n"
  rootDirectory := "/"

/-- The flags of the request in the run below leave the options for extraction as they are. -/
private theorem extractionFor_twin :
    twinOptions.extractionFor twinScript.flags = twinOptions.css := by
  unfold LoaderOptions.extractionFor
  rw [if_neg (by decide +kernel)]

/-- The typed source is where the loading of the script begins. -/
theorem load_walks_from_twin :
    (load twinTree (fun _ => none) twinOptions twinScript).events =
      (Walk.walkFrom (Extract.project twinTree (fun _ => none) twinOptions.css) "/a.ts"
        { events := [.resolved "/a.js" "/"] }).state.events := by
  have walks := (load_walks_from twinOptions twinTree (fun _ => none) twinScript rfl
    (by decide +kernel) (by decide +kernel) (by decide +kernel)).2.1
  have first : Path.clean ((firstFile? twinTree
      (rivals (effectiveExtensions twinOptions.css.extensions) (Path.clean twinScript.path))).getD
        (Path.clean twinScript.path)) = "/a.ts" := by
    decide +kernel
  rw [extractionFor_twin] at walks
  exact first ▸ walks

/-- The walk from the script that stands beside the file of that name, evaluated. -/
private theorem walkFrom_twinTree :
    Walk.walkFrom (Extract.project twinTree (fun _ => none) twinOptions.css) "/a.ts"
      { events := [.resolved "/a.js" "/"] } =
        { state :=
            { visited := ["/b.css", "/a.ts"]
              files := ["/a.ts", "/b.css"]
              compiled := [("/b.css", ".b { color: blue }\n")]
              events := [.resolved "/a.js" "/", .resolved "./b.css" "/a.ts"] } } := by
  refine Walk.run_eq_of_runWithin 4 ?_
  decide +kernel

/-- **The text of one file comes with the styles of another**, and where styles are the only
extension a script yields to the style that is named after it. -/
theorem load_typed_sibling :
    let entryOf := fun path => (Extract.resolveEntry
      (Extract.project twinTree (fun _ => none) twinOptions.css) "/" path).2
    let loading := load twinTree (fun _ => none) twinOptions twinScript
    let module : Emit.Module :=
      { statements :=
          [.raw "import './a.css';\n", .exportConst "knightedCss" (.str ".b { color: blue }\n")] }
    (∀ path ∈ ["/a.js", "/c.tsx"],
      twinTree.isFile path = true ∧ Path.clean path = path ∧ '?' ∉ path.toList) ∧
      entryOf "/a.js" = .ok "/a.ts" ∧ entryOf "/c.tsx" = .ok "/c.tsx.css" ∧
      twinTree.readText "/a.js" = .ok twinScript.source ∧
      Route.ofResource twinOptions.mode twinScript = .standard ∧
      loading.result = .ok (module.render "knightedCss") ∧
      loading.dependencies = ["/a.ts", "/b.css"] := by
  intro entryOf loading module
  have resolved : Extract.resolveEntry
      (Extract.project twinTree (fun _ => none) twinOptions.css) "/" "/a.js" =
        ([.resolved "/a.js" "/"], .ok "/a.ts") := by decide +kernel
  have extracted : (Extract.run twinTree (fun _ => none) twinOptions.css "/a.js").result =
      .ok { css := ".b { color: blue }\n", files := ["/a.ts", "/b.css"], modules := none } := by
    rw [Extract.run_of_resolveEntry resolved]
    have walked := walkFrom_twinTree
    simp only [twinOptions] at walked ⊢
    rw [walked]
    decide +kernel
  have unasked : twinScript.flags.stableRequested = false := by decide +kernel
  have routed : Route.ofResource twinOptions.mode twinScript = .standard := by decide +kernel
  have rooted : Path.isAbsolute "/a.js" = true := by decide +kernel
  have path : twinScript.path = "/a.js" := rfl
  have named : twinOptions.exportNameFor twinScript.flags = "knightedCss" := by decide +kernel
  have script : twinScript.isScript = true := by decide +kernel
  have answered : loading.result = .ok (module.render "knightedCss") ∧
      loading.dependencies = ["/a.ts", "/b.css"] := by
    simp only [loading, load, loadSheet, extractionFor_twin, rooted, if_true, routed,
      unasked, Bool.false_eq_true, if_false, path, extracted, named]
    exact ⟨congrArg (fun module => Except.ok (Emit.Module.render module "knightedCss"))
      (by simp only [standardModule, script, if_true]; rfl), rfl⟩
  exact ⟨by decide +kernel, congrArg Prod.snd resolved, by decide +kernel, by decide +kernel,
    routed, answered⟩

end Loader

end StyleGraph
