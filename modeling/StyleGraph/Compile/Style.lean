import StyleGraph.Compile.Peer
import StyleGraph.Fault

/-!
# Compiling style files

A file is compiled as its dialect says: CSS is taken as it is, Sass and Less go to peers, and
CSS-in-TS is evaluated. A compilation calls at most one peer, once.
-/

set_option autoImplicit false

namespace StyleGraph.Compile

/-- Where files are compiled. -/
structure Workspace where
  tree : FileTree
  cwd : String
  /-- The peers that are installed, by their names. -/
  peer : String → Option Peer

/-- A compilation: the call of a peer, if one was made, and the result. -/
structure Compilation where
  call : Option PeerCall := none
  result : Except Fault Compiled

namespace Workspace

/-- A compilation without the call of a peer that fails. -/
def failed (fault : Fault) : Compilation := { result := .error fault }

/-- The fault that one of a peer is. -/
def peerFault (path : String) : PeerFault → Fault
  | .said message => .compiler path (some message)
  | .refused _ => .compiler path none

/-- Compiles a file of Sass. -/
def compileSass (workspace : Workspace) (isIndented : Bool) (path : String) : Compilation :=
  match workspace.peer "sass" with
  | none => failed (.missingPeer "sass" (if isIndented then .sass else .scss))
  | some module =>
    let request : SassRequest := { path, loadPaths := loadPaths path workspace.cwd, isIndented }
    match SassApi.ofModule module with
    | .modern entry =>
      { call := some (.modern request), result := (entry request).mapError (peerFault path) }
    | .legacy entry =>
      { call := some (.legacy request)
        result :=
          match entry request with
          | .finished (some css) => .ok { css := String.ofList (Text.Utf8.decodeLossy css) }
          | .finished none => .ok { css := "" }
          | .failed message => .error (.compiler path (some message))
          | .dropped => .error (.callbackDropped "sass" path) }
    | .unsupported => failed (.unsupportedPeer "sass" "compileAsync or render")

/-- Compiles a file of Less. -/
def compileLess (workspace : Workspace) (path : String) : Compilation :=
  match workspace.peer "less" with
  | none => failed (.missingPeer "less" .less)
  | some module =>
    match module.exports.less with
    | none => failed (.unsupportedPeer "less" "render")
    | some render =>
      match workspace.tree.readText path with
      | .error cause => failed (.unread path cause)
      | .ok source =>
        let loadPaths := (Path.parent? path).toList ++ [Path.join workspace.cwd "node_modules"]
        let request : LessRequest := { source, path, loadPaths }
        { call := some (.less request), result := (render request).mapError (peerFault path) }

/-- Compiles a file. -/
def compile (workspace : Workspace) (dialect : Dialect) (path : String) : Compilation :=
  match dialect with
  | .css =>
    match workspace.tree.readText path with
    | .ok css => { result := .ok { css } }
    | .error cause => failed (.unread path cause)
  | .scss => workspace.compileSass false path
  | .sass => workspace.compileSass true path
  | .less => workspace.compileLess path
  | .vanilla =>
    match Static.evaluateFile workspace.tree path workspace.cwd with
    | .ok sheet => { result := .ok { css := sheet.css, loaded := sheet.loaded } }
    | .error cause => failed (Fault.ofProject cause)

end Workspace

end StyleGraph.Compile
