import StyleGraph.Json.Basic
import StyleGraph.Path.Basic
import StyleGraph.Resolve.Lookup

/-!
# Targets of packages

The `exports` and `imports` of a package map names to targets: paths inside the package, possibly
under conditions. A name may be mapped by a pattern with one star, whose part of the name replaces
the stars of the target.
-/

set_option autoImplicit false

namespace StyleGraph.Resolve

/-- The part of a name that a pattern key leaves open. -/
abbrev OpenPart := Option (List Char)

/-- Puts a text in place of every star. -/
def fillStars (part : List Char) (target : List Char) : List Char :=
  target.flatMap fun c => if c = '*' then part else [c]

/-- A target with the open part of its key filled in. A key that is a directory needs a target that
is one. -/
def fillTarget (key target : List Char) (part : OpenPart) : Lookup (List Char) :=
  match part with
  | none => .found target
  | some part =>
    if key.contains '*' || target.contains '*' then .found (fillStars part target)
    else if key.getLast? = some '/' && target.getLast? = some '/' then .found (target ++ part)
    else .refused

/-- Whether a target leaves its package or leads into other packages. -/
def leavesPackage (target : List Char) : Bool :=
  (Text.cutAll '/' target).any fun piece =>
    piece = ['.', '.'] || piece.map Char.toLower = "node_modules".toList

/-- What a target that is a text stands for. `bare` says what a target that is no path stands for. -/
def textTarget (directory : String) (bare : String → Lookup String) (key target : List Char)
    (part : OpenPart) : Lookup String :=
  if Text.startsWith ['.', '/'] target then
    (fillTarget key target part).bind fun filled =>
      if leavesPackage filled then .refused
      else .found (Path.clean (Path.join directory (String.ofList filled)))
  else if Text.startsWith "../".toList target || target.head? = some '/' then .refused
  else (fillTarget key target part).bind fun filled => bare (String.ofList filled)

mutual

/-- What a target stands for. -/
def targetPath (directory : String) (conditions : List String) (bare : String → Lookup String)
    (key : List Char) (part : OpenPart) : Json → Lookup String
  | .str target => textTarget directory bare key target.toList part
  | .obj members => conditionalPath directory conditions bare key part members
  | .arr items =>
    if items.isEmpty then .refused else alternativePath directory conditions bare key part items
  | .null | .bool _ | .int _ | .decimal _ _ => .absent

/-- What the first target under a condition that holds stands for. -/
def conditionalPath (directory : String) (conditions : List String)
    (bare : String → Lookup String) (key : List Char) (part : OpenPart) :
    List (String × Json) → Lookup String
  | [] => .absent
  | (condition, target) :: rest =>
    if condition = "default" || conditions.contains condition then
      (targetPath directory conditions bare key part target).orElse fun _ =>
        conditionalPath directory conditions bare key part rest
    else conditionalPath directory conditions bare key part rest

/-- What the first of some targets that stands for something stands for. -/
def alternativePath (directory : String) (conditions : List String)
    (bare : String → Lookup String) (key : List Char) (part : OpenPart) :
    List Json → Lookup String
  | [] => .absent
  | target :: rest =>
    match targetPath directory conditions bare key part target with
    | .found path => .found path
    | _ => alternativePath directory conditions bare key part rest

end

/-- How specific a pattern key is: the characters before its star counted with the star, whether it
has one, and its length. -/
def specificity (key : List Char) : Nat × Bool × Nat :=
  let starred := key.contains '*'
  let lead := if starred then (key.takeWhile (· != '*')).length + 1 else key.length
  (lead, starred, key.length)

/-- Whether a key is more specific than the best one so far. -/
def moreSpecific (best key : List Char) : Bool :=
  if best.isEmpty then true
  else
    let (bestLead, bestStarred, bestLength) := specificity best
    let (lead, starred, length) := specificity key
    if lead ≠ bestLead then lead > bestLead
    else if !bestStarred then true
    else if !starred then false
    else length > bestLength

/-- The part of a name that a pattern key leaves open, if the key matches the name. -/
def openPart? (key name : List Char) : OpenPart :=
  if !(Text.startsWith ['.', '/'] key || key.head? = some '#') then none
  else
    match Text.cutFirst '*' key with
    | (lead, some tail) =>
      if Text.startsWith lead name && !tail.contains '*' &&
          (tail.isEmpty || (name.length ≥ key.length && Text.endsWith tail name)) then
        some ((name.drop lead.length).take (name.length - lead.length - tail.length))
      else none
    | (_, none) =>
      if key.getLast? = some '/' && Text.startsWith key name then some (name.drop key.length)
      else none

/-- The most specific pattern key that matches a name, with its target and the open part. -/
def bestPattern? (members : List (String × Json)) (name : List Char) :
    Option (List Char × Json × List Char) :=
  members.foldl (fun best (key, target) =>
    match openPart? key.toList name with
    | none => best
    | some part =>
      let known := (best.map fun entry => entry.1).getD []
      if moreSpecific known key.toList then some (key.toList, target, part) else best) none

/-- What a name of a package is mapped to. -/
def mappedPath (directory : String) (conditions : List String) (bare : String → Lookup String)
    (members : List (String × Json)) (name : List Char) : Lookup String :=
  if name.getLast? = some '/' then .absent
  else
    let exact := if name.contains '*' then none else (Json.obj members).field? (String.ofList name)
    match exact with
    | some target => targetPath directory conditions bare name none target
    | none =>
      match bestPattern? members name with
      | some (key, target, part) => targetPath directory conditions bare key (some part) target
      | none => .absent

/-- What the `exports` of a package in a directory map a subpath to, `.` being the package itself.
A subpath that is not mapped is refused. -/
def exportedPath (directory : String) (conditions : List String) (exports : Json)
    (subpath : String) : Lookup String :=
  let bare (_ : String) : Lookup String := .refused
  let keys := ((exports.obj?).getD []).map fun member => member.1.toList
  let isName (key : List Char) : Bool := key.head? = some '.' || key.head? = some '#'
  if keys.any isName && keys.any (!isName ·) then .refused
  else
    let main : Option Json :=
      match exports with
      | .str _ | .arr _ => some exports
      | .obj _ =>
        match exports.field? "." with
        | some target => some target
        | none =>
          if keys.any fun key => Text.startsWith ['.', '/'] key || key.head? = some '#' then none
          else some exports
      | _ => none
    let whole :=
      if subpath = "." then
        match main with
        | some target => targetPath directory conditions bare ['.'] none target
        | none => .absent
      else .absent
    (whole.orElse fun _ =>
      match exports with
      | .obj members => mappedPath directory conditions bare members subpath.toList
      | _ => .absent).orRefuse

end StyleGraph.Resolve
