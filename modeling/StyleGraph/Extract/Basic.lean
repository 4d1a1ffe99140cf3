import StyleGraph.Extract.Options

/-!
# Extraction

The style sheet of an entry: the CSS of all style files that the entry reaches, one after the other,
and finished if the options ask for it.
-/

set_option autoImplicit false

namespace StyleGraph

open Resolve (Resolution Resolver)

/-- An extracted sheet. -/
structure Extracted where
  css : String
  /-- The files that the sheet depends on. -/
  files : List String
  /-- The exported names, if names are local. -/
  modules : Option (List (String × String))
  deriving DecidableEq, Repr, Inhabited

/-- An extraction: what it did outside itself, and the result. -/
structure Extraction where
  events : List Walk.Event := []
  result : Except Fault Extracted

namespace Extract

/-- A project with the options of an extraction. -/
def project (tree : FileTree) (commands : Compile.Commands) (options : ExtractOptions) : Project :=
  let resolver := Resolver.ofOptions tree options.extensions options.aliases options.cwd
  let peer := options.peer.getD (Compile.builtinPeer tree commands options.cwd)
  { tree
    resolve := options.resolve.getD fun specifier importer =>
      resolver.resolve specifier importer options.cwd
    compile := Compile.Workspace.compile { tree, cwd := options.cwd, peer }
    accepts := options.accepts }

/-- The file that an entry stands for. An entry that is a bare name of nothing known may also be a
path in the working directory. -/
def resolveEntry (project : Project) (cwd entry : String) :
    List Walk.Event × Except Fault String :=
  let failed : Except Fault String := .error (.unresolvedEntry entry cwd)
  let tried : Walk.Event := .resolved entry cwd
  match project.resolve entry cwd with
  | .found path => ([tried], .ok (Path.clean path))
  | .notFound => ([tried], failed)
  | .external =>
    if Specifier.classify entry = .bare then
      let relative := "./" ++ entry
      let events := [tried, .resolved relative cwd]
      match project.resolve relative cwd with
      | .found path => (events, .ok (Path.clean path))
      | _ => (events, failed)
    else ([tried], failed)

/-- The sheet that a walk found. -/
def joined (state : Walk.State) : String :=
  String.intercalate "\n" (state.chunks.map Prod.snd)

/-- Finishes the sheet that a walk found. -/
def finished (options : ExtractOptions) (state : Walk.State) : Except Fault Extracted :=
  let css := joined state
  if options.needsFinish then
    match finish? css (options.finish.getD {}) options.stable options.boost with
    | some sheet => .ok { css := sheet.css, files := state.files, modules := sheet.modules }
    | none => .error .sheet
  else .ok { css, files := state.files, modules := none }

/-- The extraction of an entry's sheet. -/
def run (tree : FileTree) (commands : Compile.Commands) (options : ExtractOptions)
    (entry : String) : Extraction :=
  let project := project tree commands options
  match resolveEntry project options.cwd entry with
  | (events, .error fault) => { events, result := .error fault }
  | (events, .ok path) =>
    let outcome := Walk.walkFrom project path { events }
    { events := outcome.state.events
      result :=
        match outcome.fault with
        | some fault => .error fault
        | none => finished options outcome.state }

end Extract

end StyleGraph
