import StyleGraph.Config.Basic
import StyleGraph.Config.Environment
import StyleGraph.FileTree
import StyleGraph.Json.Reader
import StyleGraph.Toml.Reader

/-!
# Finding the configuration

A directory has its configuration in a file of its own, or else in the description of its package.
It is a layer over the defaults, and the environment is a layer over it.
-/

set_option autoImplicit false

namespace StyleGraph.Config

/-- The file that holds nothing but a configuration. -/
def fileName : String := "knighted-css.toml"

/-- The file that describes a package. -/
def packageFileName : String := "package.json"

/-- The member of a package's description that is a configuration. -/
def packageField : String := "knightedCss"

/-- Why there is no configuration. -/
inductive Fault
  /-- There is no file with one. -/
  | notFound
  /-- Its file cannot be read. -/
  | unread (path : String) (cause : ReadFault)
  /-- A part of the package's description is not what it should be. -/
  | invalid (field : String)
  /-- The layers do not make a configuration. -/
  | unfit
  deriving DecidableEq, Repr, Inhabited

/-- The wording of a fault. -/
def Fault.message : Fault → String
  | .notFound => "config not found"
  | .unread path cause => "failed to read config file " ++ path ++ ": " ++ cause.message
  | .invalid field => "invalid config value for '" ++ field ++ "'"
  | .unfit => "configuration could not be extracted"

/-- Where a configuration is. -/
inductive Source
  | file (path : String)
  | package (path : String)
  deriving DecidableEq, Repr, Inhabited

/-- The path of the file that a configuration is in. -/
def Source.path : Source → String
  | .file path => path
  | .package path => path

/-- The configuration in the text of a package's description. -/
def packageSetting? (text : String) : Option Json :=
  match Json.parse text with
  | .error _ => none
  | .ok json =>
    match json.field? packageField with
    | some value => if value.isNull then none else some value
    | none => none

/-- Where the configuration of a directory is. -/
def find? (tree : FileTree) (directory : String) : Option Source :=
  let file := Path.join directory fileName
  let package := Path.join directory packageFileName
  if tree.isFile file then some (.file file)
  else
    match tree.readText package with
    | .error _ => none
    | .ok text => (packageSetting? text).map fun _ => .package package

/-- The layer that a file of its own makes. -/
def fileLayer (tree : FileTree) (path : String) : Except Fault Setting :=
  match tree.readText path with
  | .error _ => .error .unfit
  | .ok text =>
    match Toml.parse text with
    | none => .error .unfit
    | some setting => .ok setting

/-- The layer that the description of a package makes, which must be a table. -/
def packageLayer (tree : FileTree) (path : String) : Except Fault Setting :=
  match tree.readText path with
  | .error cause => .error (.unread path cause)
  | .ok text =>
    match Json.parse text with
    | .error _ => .error (.invalid packageFileName)
    | .ok _ =>
      match packageSetting? text with
      | none => .error (.invalid packageField)
      | some json =>
        match Setting.ofJson json with
        | .table members => .ok (.table members)
        | _ => .error .unfit

/-- The configuration from a source, if there is one, with an environment over it. -/
def layered (tree : FileTree) (environment : List (String × String)) (source : Option Source) :
    Except Fault Config := do
  let layers ←
    match source with
    | none => .ok []
    | some (.file path) => (fileLayer tree path).map fun layer => [layer]
    | some (.package path) => (packageLayer tree path).map fun layer => [layer]
  match ofLayers? (layers ++ [Environment.layer environment]) with
  | some config => .ok config
  | none => .error .unfit

/-- The configuration of a directory. -/
def load (tree : FileTree) (environment : List (String × String)) (directory : String) :
    Except Fault Config :=
  match find? tree directory with
  | none => .error .notFound
  | some source => layered tree environment (some source)

/-- The configuration of a directory, or the default one. -/
def loadOrDefault (tree : FileTree) (environment : List (String × String)) (directory : String) :
    Except Fault Config :=
  layered tree environment (find? tree directory)

end StyleGraph.Config
