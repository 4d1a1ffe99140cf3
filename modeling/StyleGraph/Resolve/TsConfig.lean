import StyleGraph.Resolve.Package
import StyleGraph.Text.Blank

/-!
# Path aliases

A `tsconfig.json` may map specifiers that are no paths to paths: by names or patterns in `paths`,
and by a directory in `baseUrl`.
-/

set_option autoImplicit false

namespace StyleGraph.Resolve

/-- Where path aliases come from. -/
inductive AliasMode
  | off
  /-- The nearest `tsconfig.json`. -/
  | auto
  /-- A file, or the directory it is in. -/
  | file (path : String)
  deriving DecidableEq, Repr, Inhabited

namespace AliasMode

/-- The mode with a written form, which may have blanks around it. -/
def ofText? (text : String) : Option AliasMode :=
  match Text.trimmed text with
  | "" => none
  | "off" | "false" => some .off
  | "auto" | "true" => some .auto
  | path => some (.file path)

/-- The written form of a mode. -/
def text : AliasMode → String
  | off => "off"
  | auto => "auto"
  | file path => path

/-- The file that a mode selects from a directory. -/
def locate? (tree : FileTree) (directory : String) : AliasMode → Option String
  | off => none
  | auto =>
    firstFile? tree ((Path.ancestors directory).map fun above => Path.join above "tsconfig.json")
  | file path =>
    let path := Path.join directory path
    some (if tree.isDirectory path then Path.join path "tsconfig.json" else path)

end AliasMode

/-- The aliases of a configuration file. -/
structure Aliases where
  /-- The directory in which every specifier is tried. -/
  base : Option String := none
  /-- The directory that mapped paths are relative to, and the mapped paths of each name or
  pattern. -/
  paths : Option (String × List (String × List String)) := none
  deriving Inhabited

namespace Aliases

/-- The most specific pattern that matches a specifier, as its mapped paths with the stars filled:
the pattern with the longest part before the star, the first of several. -/
def matchPattern (entries : List (String × List String)) (specifier : List Char) : List String :=
  let step (best : Option (Nat × List String)) (entry : String × List String) :=
    match Text.cutFirst '*' entry.1.toList with
    | (lead, some tail) =>
      let better := best.all fun found => found.1 < lead.length
      if better && Text.startsWith lead specifier && Text.endsWith tail specifier then
        let part := (specifier.drop lead.length).take
          (specifier.length - lead.length - tail.length)
        some (lead.length, entry.2.map fun path => String.ofList (fillStars part path.toList))
      else best
    | (_, none) => best
  ((entries.foldl step none).map Prod.snd).getD []

/-- The paths to try for a specifier, in order. -/
def pathsOf (aliases : Aliases) (specifier : String) : List String :=
  if specifier.toList.head? = some '.' || specifier.toList.head? = some '/' then []
  else
    let based := aliases.base.toList.map fun base => Path.clean (Path.join base specifier)
    let mapped :=
      match aliases.paths with
      | none => []
      | some (directory, entries) =>
        let found :=
          match entries.find? fun entry => entry.1 = specifier with
          | some (_, paths) => paths
          | none => matchPattern entries specifier.toList
        found.map fun path => Path.clean (Path.join directory path)
    mapped ++ based

/-- Fills in what is missing from another file's aliases. -/
def extend (aliases other : Aliases) : Aliases :=
  { base := aliases.base.or other.base, paths := aliases.paths.or other.paths }

end Aliases

/-- A configuration file. -/
structure TsConfig where
  /-- The directory of the file. -/
  directory : String
  aliases : Aliases
  /-- The files that it extends. -/
  extended : List String := []
  /-- The projects that it refers to. -/
  references : List String := []
  deriving Inhabited

namespace TsConfig

/-- The file that a path stands for: itself, the one in the directory, or the one with the extension
added. -/
def fileOf (tree : FileTree) (path : String) : String :=
  if tree.isFile path then path
  else if tree.isDirectory path then Path.join path "tsconfig.json"
  else path ++ ".json"

/-- The texts of a list. -/
def texts (json : Json) : List String := (json.arr?.getD []).filterMap Json.str?

/-- Reads a configuration file. -/
def read? (tree : FileTree) (path : String) : Option TsConfig :=
  let file := fileOf tree path
  match tree.readText file with
  | .error _ => none
  | .ok text =>
    let parsed := if Text.isBlankString text then .ok (.obj []) else Json.parseWithComments text
    match parsed with
    | .error _ => none
    | .ok json =>
      let directory := (Path.parent? file).getD ""
      let options := (json.field? "compilerOptions").getD .null
      let base := ((options.field? "baseUrl").bind Json.str?).map fun base =>
        Path.clean (Path.join directory base)
      let paths := ((options.field? "paths").bind Json.obj?).map fun members =>
        (base.getD directory, members.map fun member => (member.1, texts member.2))
      let extended :=
        match json.field? "extends" with
        | some (.str path) => [path]
        | some other => texts other
        | none => []
      let references := (((json.field? "references").bind Json.arr?).getD []).filterMap fun entry =>
        (entry.field? "path").bind Json.str?
      some { directory, aliases := { base, paths }, extended, references }

/-- The path of a file that another one extends: a path, or a file of a package. -/
def extendedPath? (tree : FileTree) (directory specifier : String) : Option String :=
  match specifier.toList with
  | [] => none
  | '/' :: _ => some specifier
  | '.' :: _ => some (Path.clean (Path.join directory specifier))
  | _ =>
    let search : Search := { tree, extensions := [".json"], index := "tsconfig.json" }
    (search.packageFile directory specifier).toOption

/-- Reads a configuration file with all that it extends. `depth` bounds the length of a chain of
extended files. -/
def load? (tree : FileTree) : Nat → String → Option TsConfig
  | 0, _ => none
  | depth + 1, path => do
    let config ← read? tree path
    let aliases ← config.extended.foldlM (fun aliases specifier => do
      let path ← extendedPath? tree config.directory specifier
      let other ← load? tree depth path
      some (aliases.extend other.aliases)) config.aliases
    some { config with aliases }

/-- The directory below which the aliases of a file hold. -/
def scope (config : TsConfig) : String := config.aliases.base.getD config.directory

/-- The paths to try for a specifier used in a directory: those of the first project referred to
that the directory is in, else those of the file itself. -/
def pathsOf? (tree : FileTree) (path directory specifier : String) : Option (List String) := do
  let depth := tree.files.length + 1
  let config ← load? tree depth path
  let projects ← config.references.mapM fun reference =>
    read? tree (Path.clean (Path.join config.directory reference))
  let inside := projects.find? fun project => (Path.stripBase? project.scope directory).isSome
  some ((inside.getD config).aliases.pathsOf specifier)

end TsConfig

end StyleGraph.Resolve
