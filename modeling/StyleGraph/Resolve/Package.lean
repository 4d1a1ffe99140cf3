import StyleGraph.Json.Reader
import StyleGraph.Resolve.Candidate
import StyleGraph.Resolve.Target

/-!
# Packages

Names that are no paths are looked up in the package they are used in and in the `node_modules`
directories around it.
-/

set_option autoImplicit false

namespace StyleGraph.Resolve

/-- How packages are searched. -/
structure Search where
  tree : FileTree
  extensions : List String
  aliases : List (String × List String) := []
  /-- The conditions that hold in `exports` and `imports`. -/
  conditions : List String := []
  /-- The name of the file that stands for a directory, before its extension. -/
  index : String := "index"

namespace Search

variable (search : Search)

/-- The file that a path stands for: with another extension in place of its own, as it is, or with
an extension added. -/
def file? (path : String) : Option String :=
  let replaced :=
    match aliasesOf? search.aliases path with
    | some (stem, replacements) => replacements.map (stem ++ ·)
    | none => []
  firstFile? search.tree (replaced ++ path :: search.extensions.map (path ++ ·))

/-- The file that stands for a directory. -/
def index? (directory : String) : Option String :=
  let path := Path.clean (Path.join directory search.index)
  firstFile? search.tree (path :: search.extensions.map (path ++ ·))

/-- The description of the package in a directory. One that is not JSON is refused. -/
def description (directory : String) : Lookup Json :=
  match search.tree.readText (Path.join directory "package.json") with
  | .ok text =>
    match Json.parse text with
    | .ok json => .found json
    | .error _ => .refused
  | .error .undecodable => .refused
  | .error _ => .absent

/-- The file that stands for a directory, which its description may name. -/
def directoryFile (directory : String) : Lookup String :=
  match search.description directory with
  | .refused => .refused
  | .absent => .ofOption (search.index? directory)
  | .found json =>
    let main :=
      match (json.field? "main").bind Json.str? with
      | some main =>
        let path := Path.clean (Path.join directory (String.ofList ('.' :: '/' :: main.toList)))
        (search.file? path).or (search.index? path)
      | none => none
    .ofOption (main.or (search.index? directory))

/-- The file that a path stands for, as a file or as a directory. -/
def fileOrDirectory (path : String) (directoryOnly : Bool) : Lookup String :=
  let file := if directoryOnly then none else search.file? path
  match file with
  | some found => .found found
  | none => if search.tree.isDirectory path then search.directoryFile path else .absent

/-- The file at a path that a package maps a name to. -/
def mappedFile (path : String) : Lookup String := (search.fileOrDirectory path false).orRefuse

/-- The name of a package, which may have a scope, and what follows it. -/
def packageName (specifier : String) : String × String :=
  let cs := specifier.toList
  let first := cs.takeWhile (· != '/')
  let name :=
    if cs.head? = some '@' then
      match cs.drop first.length with
      | '/' :: rest => first ++ '/' :: rest.takeWhile (· != '/')
      | _ => first
    else first
  (String.ofList name, String.ofList (cs.drop name.length))

/-- The `node_modules` directories from a directory upwards. -/
def moduleDirectories (directory : String) : List String :=
  ((Path.ancestors directory).filter search.tree.isDirectory).filterMap fun above =>
    let modules := Path.join above "node_modules"
    if search.tree.isDirectory modules then some modules else none

/-- The nearest description of a package from a directory upwards, with its directory. -/
def scope (directory : String) : Lookup (String × Json) :=
  Lookup.firstOf (Path.ancestors directory) fun above =>
    (search.description above).bind fun json => .found (above, json)

/-- What follows the name of a package in a specifier. -/
def subpathOf? (name specifier : String) : Option String := do
  let rest ← Text.stripStart? name.toList specifier.toList
  if rest.isEmpty || rest.head? = some '/' then some (String.ofList rest) else none

/-- What the package that a directory is in exports under a specifier with its name. -/
def selfFile (directory specifier : String) : Lookup String :=
  (search.scope directory).bind fun (above, json) =>
    match (json.field? "name").bind Json.str?, json.field? "exports" with
    | some name, some exports =>
      match subpathOf? name specifier with
      | some subpath =>
        (exportedPath above search.conditions exports ("." ++ subpath)).bind search.mappedFile
      | none => .absent
    | _, _ => .absent

/-- What a directory with packages has for a specifier. -/
def fileInModules (specifier modules : String) : Lookup String :=
  let (name, subpath) := packageName specifier
  let package := Path.clean (Path.join modules name)
  let isPackage := search.tree.isDirectory package
  let exported : Lookup String :=
    if isPackage then
      (search.description package).bind fun json =>
        match json.field? "exports" with
        | some exports =>
          (exportedPath package search.conditions exports ("." ++ subpath)).bind search.mappedFile
        | none => .absent
    else .absent
  let missingScope := name.toList.head? = some '@' &&
    !search.tree.isDirectory ((Path.parent? package).getD package)
  if !isPackage && (!subpath.isEmpty || missingScope) then .absent
  else
    exported.orElse fun _ =>
      search.fileOrDirectory (Path.clean (Path.join modules specifier))
        (specifier.toList.getLast? = some '/')

/-- The file of a package, of the one that a directory is in or of an installed one. -/
def packageFile (directory specifier : String) : Lookup String :=
  (search.selfFile directory specifier).orElse fun _ =>
    Lookup.firstOf (search.moduleDirectories directory) (search.fileInModules specifier)

/-- The path that a package has for a specifier to which another package maps one of its internal
names. -/
def importedPackage (directory specifier : String) : Lookup String :=
  let (name, subpath) := packageName specifier
  (Lookup.firstOf (search.moduleDirectories directory) fun modules =>
    let package := Path.clean (Path.join modules name)
    if search.tree.isDirectory package then
      let exported : Lookup String :=
        (search.description package).bind fun json =>
          match json.field? "exports" with
          | some exports => exportedPath package search.conditions exports ("." ++ subpath)
          | none => .absent
      exported.orElse fun _ =>
        (search.fileOrDirectory (Path.clean (Path.join package ("." ++ subpath)))
          (subpath.toList.getLast? = some '/')).orRefuse
    else .absent).orRefuse

/-- The file of an internal name, which begins with `#`, of the package that a directory is in. -/
def internalFile (directory specifier : String) : Lookup String :=
  (search.scope directory).bind fun (above, json) =>
    match json.field? "imports" with
    | none => .absent
    | some imports =>
      if specifier = "#" || Text.startsWith ['#', '/'] specifier.toList then .refused
      else
        match imports with
        | .obj members =>
          (mappedPath above search.conditions (search.importedPackage above) members
            specifier.toList).orRefuse.bind search.mappedFile
        | _ => .refused

/-- The file of a specifier that is no path. -/
def bareFile (directory specifier : String) : Lookup String :=
  let internal :=
    if specifier.toList.head? = some '#' then search.internalFile directory specifier else .absent
  internal.orElse fun _ => search.packageFile directory specifier

end Search

end StyleGraph.Resolve
