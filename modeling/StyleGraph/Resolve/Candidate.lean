import StyleGraph.FileTree

/-!
# Candidates

The files that a path without a full file name may stand for, and which of them is taken.
-/

set_option autoImplicit false

namespace StyleGraph.Resolve

/-- The extensions that are tried when none are given, in order. -/
def defaultExtensions : List String :=
  [".ts", ".tsx", ".mts", ".cts", ".js", ".jsx", ".mjs", ".cjs", ".css", ".scss", ".sass", ".less"]

/-- The extensions of scripts that may name a typed source, each with the extensions that are tried
in its place, in order. -/
def extensionAliases : List (String × List String) :=
  [(".js", [".ts", ".tsx", ".js"]), (".jsx", [".tsx", ".jsx"]), (".mjs", [".mts", ".mjs"]),
    (".cjs", [".cts", ".cjs"])]

/-- An extension with its dot. -/
def dotted (extension : String) : String :=
  if extension.toList.head? = some '.' then extension else "." ++ extension

/-- The extensions in effect: those given, with their dots, or the default ones. -/
def effectiveExtensions (given : List String) : List String :=
  if given.isEmpty then defaultExtensions else given.map dotted

/-- The extensions that are tried in place of that of a path, with the path before its extension. -/
def aliasesOf? (aliases : List (String × List String)) (path : String) :
    Option (String × List String) := do
  let extension ← Path.extension? path
  let (_, replacements) ← aliases.find? fun entry => entry.1 = "." ++ extension
  let stem := path.toList.take (path.length - (extension.length + 1))
  some (String.ofList stem, replacements)

/-- The first of some paths that is a file. -/
def firstFile? (tree : FileTree) (paths : List String) : Option String :=
  paths.find? tree.isFile

/-- The paths that a candidate may stand for without being a directory, in order: with the
extensions in place of its own, or as it is when its extension is one of those in effect, then with
each extension added. -/
def namedCandidates (extensions : List String) (candidate : String) : List String :=
  let exact :=
    match aliasesOf? extensionAliases candidate with
    | some (stem, replacements) => replacements.map (stem ++ ·)
    | none =>
      match Path.extension? candidate with
      | some extension => if extensions.contains ("." ++ extension) then [candidate] else []
      | none => []
  exact ++ extensions.map (candidate ++ ·)

/-- The paths of the index files of a directory, in order. -/
def indexCandidates (extensions : List String) (directory : String) : List String :=
  extensions.map fun extension => Path.join directory ("index" ++ extension)

/-- The file that a candidate stands for. A file whose extension is not in effect comes last. -/
def tryCandidate? (tree : FileTree) (extensions : List String) (candidate : String) :
    Option String :=
  match firstFile? tree (namedCandidates extensions candidate) with
  | some found => some found
  | none =>
    let index :=
      if tree.isDirectory candidate then firstFile? tree (indexCandidates extensions candidate)
      else none
    match index with
    | some found => some found
    | none => firstFile? tree [candidate]

end StyleGraph.Resolve
