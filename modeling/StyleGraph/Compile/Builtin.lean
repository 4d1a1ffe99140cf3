import StyleGraph.Compile.Peer
import StyleGraph.Text.Blank

/-!
# Peers that come along

Sass is compiled by the library itself. Less is compiled by the command `lessc`, which gets the
sheet as its input and prints the result. The one in the packages of the working directory goes
before the one that the system finds by its name.
-/

set_option autoImplicit false

namespace StyleGraph.Compile

/-- What a command printed, and whether it succeeded. -/
structure CommandOutput where
  success : Bool := true
  out : List UInt8 := []
  err : List UInt8 := []
  deriving DecidableEq, Repr, Inhabited

/-- What a command prints for its arguments, the directory it runs in, and its input. -/
abbrev Command := List String → String → String → CommandOutput

/-- The commands that can be run, by their paths, and by the bare names of those that the system
finds on its search path. -/
abbrev Commands := String → Option Command

/-- What is said of a command that cannot be run. -/
def notRunnable : String := "Permission denied (os error 13)"

/-- What is said of a path that cannot be put on a list of paths. -/
def unlistable : String := "path segment contains separator \x60:\x60"

/-- The name of the command that compiles Less. -/
def lesscName : String := "lessc"

/-- Where the packages of the working directory have that command. -/
def lesscPath (cwd : String) : String :=
  Path.join (Path.join (Path.join cwd "node_modules") ".bin") lesscName

/-- How the command that compiles Less is called, if there is one. -/
def lessc? (tree : FileTree) (commands : Commands) (cwd : String) : Option String :=
  if tree.isFile (lesscPath cwd) then some (lesscPath cwd)
  else if (commands lesscName).isSome then some lesscName
  else none

/-- Compiles Less with a command. -/
def renderLess (commands : Commands) (command : String) (request : LessRequest) :
    Except PeerFault Compiled :=
  if request.loadPaths.any fun path => path.toList.contains ':' then .error (.said unlistable)
  else
    match commands (Path.clean command) with
    | none => .error (.said notRunnable)
    | some run =>
      let paths := String.intercalate ":" request.loadPaths
      let output := run ["--include-path=" ++ paths, "-"]
        ((Path.parent? request.path).getD "") request.source
      if output.success then
        match Text.Utf8.decode output.out with
        | .ok css => .ok { css := String.ofList css }
        | .error fault => .error (.said fault.message)
      else .error (.said (Text.trimmed (String.ofList (Text.Utf8.decodeLossy output.err))))

/-- Compiles Sass without the help of a peer. -/
def compileSass (tree : FileTree) (request : SassRequest) : Except PeerFault Compiled :=
  let layout := if request.isIndented then some Sass.Layout.indented else none
  match Sass.compile tree request.loadPaths layout request.path with
  | .ok sheet => .ok { css := sheet.css, loaded := sheet.loaded }
  | .error cause => .error (.refused cause)

/-- The peers that are there without any being installed. -/
def builtinPeer (tree : FileTree) (commands : Commands) (cwd name : String) : Option Peer :=
  match name with
  | "sass" => some { main := { modern := some (compileSass tree) } }
  | "less" =>
    (lessc? tree commands cwd).map fun command =>
      { main := { less := some (renderLess commands command) } }
  | _ => none

end StyleGraph.Compile
