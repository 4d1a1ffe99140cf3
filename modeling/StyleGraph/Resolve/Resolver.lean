import StyleGraph.Resolve.TsConfig
import StyleGraph.Specifier

/-!
# Resolving specifiers

Paths and file addresses are tried as they are written. Other specifiers are tried as path aliases
and as packages; what cannot be found so lies outside the project.
-/

set_option autoImplicit false

namespace StyleGraph.Resolve

/-- What a specifier stands for. -/
inductive Resolution
  | found (path : String)
  /-- Something outside the project. -/
  | external
  | notFound
  deriving DecidableEq, Repr, Inhabited

/-- How specifiers are resolved in a project. -/
structure Resolver where
  tree : FileTree
  extensions : List String := defaultExtensions
  /-- The file with path aliases. -/
  aliasFile : Option String := none

namespace Resolver

/-- The resolver of a project, given the extensions to try, the source of its path aliases and the
directory that it is looked for from. -/
def ofOptions (tree : FileTree) (extensions : List String) (mode : AliasMode)
    (directory : String) : Resolver :=
  { tree, extensions := effectiveExtensions extensions, aliasFile := mode.locate? tree directory }

/-- How packages are searched. -/
def search (resolver : Resolver) : Search :=
  { tree := resolver.tree, extensions := resolver.extensions, aliases := extensionAliases
    conditions := ["style", "import", "module", "default"] }

/-- The file of a path alias. Without a readable file of aliases every specifier is refused. -/
def aliasedFile (resolver : Resolver) (directory specifier : String) : Lookup String :=
  match resolver.aliasFile with
  | none => .absent
  | some file =>
    match TsConfig.pathsOf? resolver.tree file directory specifier with
    | none => .refused
    | some paths =>
      .ofOption (paths.findSome? fun path =>
        (resolver.search.fileOrDirectory path false).toOption)

/-- A specifier before its fragment, and whether it has one. -/
def cutFragment (specifier : String) : String × Bool :=
  match specifier.toList with
  | [] => ("", false)
  | c :: rest =>
    let body := rest.takeWhile (· != '#')
    if c = '#' || body.length = rest.length then
      (String.ofList (c :: body), body.length ≠ rest.length)
    else (String.ofList (c :: body), true)

/-- The file of a specifier that is no path, taken as a whole. -/
def wholeBare (resolver : Resolver) (directory specifier : String) : Lookup String :=
  (resolver.aliasedFile directory specifier).orElse fun _ =>
    resolver.search.bareFile directory specifier

/-- What a specifier that is no path stands for. A fragment is first taken as part of the name. -/
def resolveBare (resolver : Resolver) (directory specifier : String) : Resolution :=
  let (path, hasFragment) := cutFragment specifier
  let whole := (resolver.wholeBare directory specifier).toOption
  let found :=
    if hasFragment then whole.or (resolver.wholeBare directory path).toOption else whole
  match found with
  | some path => .found path
  | none => .external

/-- The directory that specifiers of an importer are relative to. -/
def importerDirectory (resolver : Resolver) (importer directory : String) : String :=
  if resolver.tree.isDirectory importer then importer
  else (Path.parent? importer).getD directory

/-- What a specifier of an importer stands for. Its query does not count. -/
def resolve (resolver : Resolver) (specifier importer directory : String) : Resolution :=
  let (path, _) := Specifier.splitQuery specifier
  let within := resolver.importerDirectory importer directory
  let tryPath (candidate : String) : Resolution :=
    match tryCandidate? resolver.tree resolver.extensions (Path.clean candidate) with
    | some found => .found found
    | none => .notFound
  if path.isEmpty then .notFound
  else
    match Specifier.classify path with
    | .foreignScheme => .external
    | .bare => resolver.resolveBare within path
    | .fileUrl target => tryPath target
    | .absolute => tryPath path
    | .relative => tryPath (Path.join within path)

end Resolver

end StyleGraph.Resolve
