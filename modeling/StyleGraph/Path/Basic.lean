import StyleGraph.Text.Cut

/-!
# Paths

Slash-separated paths, read as parts. Empty parts and `.` after the beginning do not count, so
two spellings of one path have the same parts; only cleaning resolves `..`.
-/

set_option autoImplicit false

namespace StyleGraph.Path

/-- One part of a path. -/
inductive Part
  /-- The leading slash of an absolute path. -/
  | root
  /-- A leading `.`. -/
  | current
  /-- `..`. -/
  | parent
  /-- A name. -/
  | name (text : String)
  deriving DecidableEq, Repr, Inhabited

/-- The text of a part. -/
def Part.text : Part → String
  | .root => "/"
  | .current => "."
  | .parent => ".."
  | .name text => text

/-- Whether a path begins at the root. -/
def isAbsolute (path : String) : Bool := path.toList.head? == some '/'

/-- The part that a piece between slashes stands for, `.` and the empty piece being none. -/
def partOf? (piece : List Char) : Option Part :=
  match piece with
  | [] => none
  | ['.'] => none
  | ['.', '.'] => some .parent
  | piece => some (.name (String.ofList piece))

/-- The parts of a path. -/
def parts (path : String) : List Part :=
  let pieces := Text.cutAll '/' path.toList
  let lead : List Part :=
    if isAbsolute path then [.root]
    else if pieces.head? == some ['.'] then [.current]
    else []
  lead ++ pieces.filterMap partOf?

/-- Two paths after each other; an absolute second path stands alone. -/
def join (base path : String) : String :=
  if isAbsolute path then path
  else if base.isEmpty then path
  else if base.toList.getLast? == some '/' then base ++ path
  else base ++ "/" ++ path

/-- The path with the given parts. -/
def ofParts (parts : List Part) : String :=
  parts.foldl (fun path part => join path part.text) ""

/-- The parts that stay when `.` and `..` are resolved, last part first. -/
def cleanStep (kept : List Part) (part : Part) : List Part :=
  match part, kept with
  | .current, kept => kept
  | .parent, .root :: rest => .root :: rest
  | .parent, .name _ :: rest => rest
  | part, kept => part :: kept

/-- Resolves `.` and `..` by the text alone. The empty path becomes `.`. -/
def clean (path : String) : String :=
  match (parts path).foldl cleanStep [] with
  | [] => "."
  | kept => ofParts kept.reverse

/-- A path as its beginning, which is the root, a leading `.` or nothing, and the pieces between
slashes that follow. -/
def split (path : String) : List Char × List (List Char) :=
  match path.toList with
  | '/' :: body => (['/'], Text.cutAll '/' body)
  | cs =>
    match Text.cutAll '/' cs with
    | ['.'] :: pieces => (['.'], pieces)
    | pieces => ([], pieces)

/-- The path of a beginning and pieces. -/
def unsplit : List Char × List (List Char) → String
  | (['.'], []) => "."
  | (['.'], pieces) => String.ofList ('.' :: '/' :: Text.joinWith ['/'] pieces)
  | (lead, pieces) => String.ofList (lead ++ Text.joinWith ['/'] pieces)

/-- Whether a piece between slashes names nothing. -/
def isIdle (piece : List Char) : Bool := piece == [] || piece == ['.']

/-- Pieces without the last ones that name nothing. -/
def dropIdle (pieces : List (List Char)) : List (List Char) :=
  (pieces.reverse.dropWhile isIdle).reverse

/-- The path without its last part, if that part can be taken away. The spelling of what stays is
kept. -/
def parent? (path : String) : Option String :=
  let (lead, pieces) := split path
  match (dropIdle pieces).reverse with
  | [] => if lead == ['.'] then some "" else none
  | _ :: rest => some (unsplit (lead, dropIdle rest.reverse))

/-- The pieces after the first `count` ones that name something, without idle pieces before them. -/
def dropPieces : Nat → List (List Char) → List (List Char)
  | 0, pieces => pieces.dropWhile isIdle
  | _, [] => []
  | count + 1, piece :: rest =>
    if isIdle piece then dropPieces (count + 1) rest else dropPieces count rest

/-- What leads from a directory to a path below it, if the parts of the path begin with those of the
directory. The spelling of what stays is kept. -/
def stripBase? (base path : String) : Option String :=
  let known := parts base
  if known.isPrefixOf (parts path) then
    let (lead, pieces) := split path
    if known.isEmpty then some (unsplit (lead, dropIdle pieces))
    else
      let named := if lead.isEmpty then known.length else known.length - 1
      some (unsplit ([], dropIdle (dropPieces named pieces)))
  else none

/-- The last part, when it is a name. -/
def fileName? (path : String) : Option String :=
  match (parts path).getLast? with
  | some (.name text) => some text
  | _ => none

/-- What follows the last dot of a file name. A name that begins with its only dot has none. -/
def extensionOfName? (name : String) : Option String :=
  match name.toList.reverse with
  | [] => none
  | cs =>
    let tail := cs.takeWhile (· != '.')
    match cs.dropWhile (· != '.') with
    | [] => none
    | ['.'] => none
    | _ => some (String.ofList tail.reverse)

/-- The extension of a path's file name. -/
def extension? (path : String) : Option String := do
  let name ← fileName? path
  extensionOfName? name

/-- A path and all the directories above it, the path first. -/
def ancestors (path : String) : List String :=
  go path.length path
where
  go : Nat → String → List String
    | 0, path => [path]
    | fuel + 1, path =>
      match parent? path with
      | some above => path :: go fuel above
      | none => [path]

/-- The number of leading parts that two lists share. -/
def commonLength : List Part → List Part → Nat
  | a :: as, b :: bs => if a = b then commonLength as bs + 1 else 0
  | _, _ => 0

/-- The parts that lead from one directory to another path: one `..` for each part to leave, then
the parts to enter. -/
def routeParts (base target : List Part) : List Part :=
  let common := commonLength base target
  List.replicate (base.length - common) .parent ++ target.drop common

end StyleGraph.Path
