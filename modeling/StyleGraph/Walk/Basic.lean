import StyleGraph.Compile.Style
import StyleGraph.Resolve.Resolver

/-!
# The walk through a project

A walk begins at a file and follows the imports of scripts and CSS-in-TS modules, depth first and in
the order in which they are written. Every file is visited once. A style file adds its CSS when it is
reached, a CSS-in-TS module after everything that it imports, so that the CSS comes in the order of
the cascade.
-/

set_option autoImplicit false

namespace StyleGraph

open Resolve (Resolution)

/-- A project as a walk sees it. -/
structure Project where
  tree : FileTree
  /-- What a specifier stands for where a file imports it. -/
  resolve : (specifier importer : String) → Resolution
  /-- The compilation of a style file. -/
  compile : Dialect → String → Compile.Compilation
  /-- Whether a file adds its CSS. -/
  accepts : String → Bool

namespace Walk

/-- What a file is to a walk. -/
inductive Kind
  | style (dialect : Dialect)
  | script
  /-- Nothing that a walk cares for. -/
  | other
  deriving DecidableEq, Repr, Inhabited

/-- The kind of a file. -/
def Kind.ofPath (path : String) : Kind :=
  match Dialect.ofPath? path with
  | some dialect => .style dialect
  | none =>
    if (Path.extension? path).any Static.scriptExtensions.contains then .script else .other

/-- The dialect of a style file that does not import anything. -/
def Kind.sheet? : Kind → Option Dialect
  | .style .vanilla => none
  | .style dialect => some dialect
  | _ => none

/-- Whether a path leads through installed packages. -/
def isInstalled (path : String) : Bool := (Path.parts path).contains (.name "node_modules")

/-- Something that a walk does outside itself. -/
inductive Event
  | resolved (specifier importer : String)
  | called (call : Compile.PeerCall)
  deriving DecidableEq, Repr, Inhabited

/-- What a walk has found. -/
structure State where
  /-- The files that were visited. -/
  visited : List String := []
  /-- The files that the result depends on, each once, in the order in which they were found. -/
  files : List String := []
  /-- The files that were compiled and their CSS, in the order of their compilation. -/
  compiled : List (String × String) := []
  events : List Event := []
  deriving DecidableEq, Repr, Inhabited

namespace State

/-- Marks a file as visited. -/
def mark (state : State) (path : String) : State := { state with visited := path :: state.visited }

/-- Adds a file that the result depends on. -/
def record (state : State) (path : String) : State :=
  if state.files.contains path then state else { state with files := state.files ++ [path] }

/-- Adds an event. -/
def log (state : State) (event : Event) : State := { state with events := state.events ++ [event] }

/-- Adds the CSS that a file was compiled to. -/
def store (state : State) (path css : String) : State :=
  { state with compiled := state.compiled ++ [(path, css)] }

/-- The files that added CSS, and the CSS that each added. -/
def chunks (state : State) : List (String × String) :=
  state.compiled.filter fun entry => !entry.2.isEmpty

end State

/-- The end of a walk or of a part of it: what was found, and what went wrong. -/
structure Outcome where
  state : State
  fault : Option Fault := none
  deriving DecidableEq, Repr, Inhabited

/-- The files that specifiers of a file stand for. What lies outside the project is left out. -/
def resolveAll (project : Project) (importer : String) :
    List String → State → State × Except Fault (List String)
  | [], state => (state, .ok [])
  | specifier :: rest, state =>
    let state := state.log (.resolved specifier importer)
    match project.resolve specifier importer with
    | .notFound => (state, .error (.unresolvedImport specifier importer))
    | .external => resolveAll project importer rest state
    | .found path =>
      let (state, others) := resolveAll project importer rest state
      (state, others.map (Path.clean path :: ·))

/-- The files that a script imports. -/
def importsOf (project : Project) (path : String) (state : State) :
    State × Except Fault (List String) :=
  match project.tree.readText path with
  | .error cause => (state, .error (.unread path cause))
  | .ok source =>
    match Script.importedSources? source path with
    | none => (state, .error (.unreadableScript path))
    | some specifiers => resolveAll project path specifiers state

/-- Adds the CSS of a style file, if it is accepted. -/
def contribute (project : Project) (dialect : Dialect) (path : String) (state : State) : Outcome :=
  if !project.accepts path then { state }
  else
    let compilation := project.compile dialect path
    let state := compilation.call.elim state fun call => state.log (.called call)
    match compilation.result with
    | .error fault => { state, fault := some fault }
    | .ok compiled =>
      { state := ((compiled.loaded.map Path.clean).foldl State.record state).store path
          compiled.css }

/-- What a walk still has to do. -/
inductive Frame
  | visit (path : String)
  /-- Add the CSS of a CSS-in-TS module. -/
  | emit (path : String)
  deriving DecidableEq, Repr, Inhabited

/-- Whether a walk passes over a file. -/
def isPassed (entry path : String) : Bool :=
  match Kind.ofPath path with
  | .other => true
  | .script => path ≠ entry && isInstalled path
  | .style _ => false

/-- What is to be done for a file after its imports. -/
def Kind.afterImports (path : String) : Kind → List Frame
  | .style _ => [.emit path]
  | _ => []

/-- Does what one frame asks for: the frames that come before all others then, and what has become
of the walk. -/
def turn (project : Project) (entry : String) (frame : Frame) (state : State) :
    List Frame × Outcome :=
  match frame with
  | .emit path => ([], contribute project .vanilla path state)
  | .visit path =>
    if state.visited.contains path then ([], { state })
    else if isPassed entry path then ([], { state := state.mark path })
    else
      let kind := Kind.ofPath path
      let state := (state.mark path).record path
      match kind.sheet? with
      | some dialect => ([], contribute project dialect path state)
      | none =>
        match importsOf project path state with
        | (state, .error fault) => ([], { state, fault := some fault })
        | (state, .ok imports) =>
          (imports.map Frame.visit ++ kind.afterImports path, { state })

/-- Does what the frames ask for, the first frame first, until none is left or something goes
wrong. -/
def State.run (project : Project) (entry : String) (frames : List Frame) (state : State) :
    Outcome :=
  match frames with
  | [] => { state }
  | frame :: rest =>
    let (added, outcome) := turn project entry frame state
    if outcome.fault.isSome then outcome
    else outcome.state |>.run project entry (added ++ rest)
partial_fixpoint

/-- The walk from a file. -/
def walkFrom (project : Project) (entry : String) (state : State) : Outcome :=
  state.run project entry [.visit entry]

end Walk

end StyleGraph
