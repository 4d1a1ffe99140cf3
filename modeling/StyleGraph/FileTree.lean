import StyleGraph.Path.Basic
import StyleGraph.Text.Utf8

/-!
# File trees

The files that a project consists of, as a value. A path is followed step by step from the root: a
file has nothing below it, and what leads through something that is not there leads nowhere.
-/

set_option autoImplicit false

namespace StyleGraph

/-- Why a path cannot be read. -/
inductive ReadFault
  | missing
  | isDirectory
  /-- Something on the way is a file. -/
  | notDirectory
  /-- The content is not UTF-8. -/
  | undecodable
  deriving DecidableEq, Repr, Inhabited

/-- The wording of a fault. -/
def ReadFault.message : ReadFault → String
  | .missing => "No such file or directory (os error 2)"
  | .isDirectory => "Is a directory (os error 21)"
  | .notDirectory => "Not a directory (os error 20)"
  | .undecodable => "stream did not contain valid UTF-8"

/-- What a file holds. -/
inductive Content
  | text (value : String)
  /-- Bytes that are not UTF-8. -/
  | undecodable
  deriving DecidableEq, Repr, Inhabited

/-- The content with the given bytes. -/
def Content.ofBytes (bytes : List UInt8) : Content :=
  match Text.Utf8.decode bytes with
  | .ok cs => .text (String.ofList cs)
  | .error _ => .undecodable

/-- Directories and files, each by the names that lead to it from the root. -/
structure FileTree where
  files : List (List String × Content) := []
  directories : List (List String) := []
  deriving Repr, Inhabited

namespace FileTree

/-- What is at a place. -/
inductive Place
  | file (content : Content)
  | directory
  deriving DecidableEq, Repr

/-- What the names from the root lead to. A directory is there if it was given or if something is
below it; a file goes before a directory. -/
def place? (tree : FileTree) (names : List String) : Option Place :=
  match tree.files.find? fun file => file.1 = names with
  | some (_, content) => some (.file content)
  | none =>
    if names.isEmpty || tree.directories.any (names.isPrefixOf ·) ||
        tree.files.any (fun file => names.isPrefixOf file.1) then
      some .directory
    else none

/-- Follows the pieces of a path from a directory. -/
def follow (tree : FileTree) (names : List String) : List (List Char) → Except ReadFault Place
  | [] =>
    match tree.place? names with
    | some place => .ok place
    | none => .error .missing
  | piece :: rest =>
    match tree.place? names with
    | some .directory =>
      match Path.partOf? piece with
      | some (.name name) => follow tree (names ++ [name]) rest
      | some .parent => follow tree names.dropLast rest
      | _ => follow tree names rest
    | some (.file _) => .error .notDirectory
    | none => .error .missing

/-- What is at an absolute path. Other paths lead nowhere. -/
def lookup (tree : FileTree) (path : String) : Except ReadFault Place :=
  match path.toList with
  | '/' :: rest => tree.follow [] (Text.cutAll '/' rest)
  | _ => .error .missing

/-- Whether a path leads to a file. -/
def isFile (tree : FileTree) (path : String) : Bool :=
  match tree.lookup path with
  | .ok (.file _) => true
  | _ => false

/-- Whether a path leads to a directory. -/
def isDirectory (tree : FileTree) (path : String) : Bool :=
  match tree.lookup path with
  | .ok .directory => true
  | _ => false

/-- Whether a path leads to anything. -/
def exists? (tree : FileTree) (path : String) : Bool :=
  match tree.lookup path with
  | .ok _ => true
  | .error _ => false

/-- The text of the file that a path leads to. -/
def readText (tree : FileTree) (path : String) : Except ReadFault String :=
  match tree.lookup path with
  | .ok (.file (.text value)) => .ok value
  | .ok (.file .undecodable) => .error .undecodable
  | .ok .directory => .error .isDirectory
  | .error fault => .error fault

/-- The absolute path of names from the root. -/
def pathOf (names : List String) : String := String.join (names.map ("/" ++ ·))

/-- The absolute paths of all files. -/
def filePaths (tree : FileTree) : List String := tree.files.map fun file => pathOf file.1

end FileTree

end StyleGraph
