import StyleGraph.Css.Sheet.Reader
import StyleGraph.Stable.Token
import StyleGraph.Text.Cut
import StyleGraph.Text.Quoted

/-!
# The stable classes of a sheet

The stable classes of a namespace are the classes that begin with it. They are collected from the
selectors of a sheet in the order in which they first appear, also inside lists of selectors and
`:global(…)`. In a text that is no sheet, every point before such a name counts.

The classes become the text of a frozen object that a script exports.
-/

set_option autoImplicit false

namespace StyleGraph.Stable

open Css

/-- Names without their namespace, each with its stable class, in order of first appearance. -/
abbrev StableMap := List (String × String)

namespace StableMap

/-- Adds a name unless it is there. -/
def insert (map : StableMap) (entry : String × String) : StableMap :=
  if map.any fun other => other.1 == entry.1 then map else map ++ [entry]

/-- The stable class of a name. -/
def stable? (map : StableMap) (name : String) : Option String :=
  (map.find? fun entry => entry.1 == name).map Prod.snd

/-- The map of classes, of which those that begin with the namespace count. -/
def ofClasses (space : String) (classes : List String) : StableMap :=
  (classes.filterMap fun name =>
    match Text.stripStart? (space ++ "-").toList name.toList with
    | some (c :: rest) => some (String.ofList (c :: rest), name)
    | _ => none).foldl insert []

end StableMap

mutual

/-- The classes of a component, in written order. -/
def componentClasses : Component → List String
  | .class name => [name]
  | .list _ selectors => listClasses selectors
  | .wrap kind inner =>
    match kind with
    | .slotted | .host | .global => selectorClasses inner
    | _ => []
  | _ => []

/-- The classes of a selector, in written order. -/
def selectorClasses : Selector → List String
  | .mk components _ =>
    (Selector.turn (fun entry => entry.1.isCombinator) (withClasses components)).flatMap Prod.snd

/-- Components with their classes. -/
def withClasses : List Component → List (Component × List String)
  | [] => []
  | component :: rest => (component, componentClasses component) :: withClasses rest

/-- The classes of selectors. -/
def listClasses : List Selector → List String
  | [] => []
  | selector :: rest => selectorClasses selector ++ listClasses rest

end

/-- A character that may stand in a stable class after its namespace, in a text that is no
sheet. -/
def isScanChar (c : Char) : Bool := c.isAlphanum || c == '_' || c == '-'

/-- The names that follow a point and the namespace in a text. -/
def scan (lead : List Char) : Nat → List Char → List String
  | 0, _ => []
  | _, [] => []
  | fuel + 1, c :: rest =>
    match Text.stripStart? lead (c :: rest) with
    | some after =>
      let name := after.takeWhile isScanChar
      if name.isEmpty then scan lead fuel rest
      else String.ofList name :: scan lead fuel (after.dropWhile isScanChar)
    | none => scan lead fuel rest

/-- The stable classes of a sheet's text in a namespace. -/
def stableMap (css space : String) : StableMap :=
  let space := Text.trimmed space
  if space.isEmpty then []
  else
    match Sheet.ofText? true css with
    | some sheet => StableMap.ofClasses space (sheet.selectorLists.flatMap listClasses)
    | none =>
      let names := scan ('.' :: (space ++ "-").toList) css.length css.toList
      (names.map fun name => (name, space ++ "-" ++ name)).foldl StableMap.insert []

/-- The language of a script. -/
inductive ScriptKind
  | typed
  | plain
  deriving DecidableEq, Repr, Inhabited

/-- The text of the frozen object that maps names to stable classes. -/
def literalText (map : StableMap) (kind : ScriptKind) : String :=
  let entries := map.map fun (name, stable) =>
    "\n  " ++ Text.quote name ++ ": " ++ Text.quote stable
  let body :=
    if map.isEmpty then "\x7b\x7d"
    else "\x7b" ++ String.intercalate "," entries ++ "\n\x7d"
  let assertion := match kind with
    | .typed => " as const"
    | .plain => ""
  "export const stableSelectors = Object.freeze(" ++ body ++ assertion ++ ");"

/-- What is said when the namespace for a resource is blank. -/
def blankSpaceWarning (resource : String) : String :=
  "knighted-css: stable namespace for " ++ resource ++
    " is empty; stableSelectors will be an empty object"

/-- The stable classes of a sheet as an exported object. -/
structure StableLiteral where
  text : String
  map : StableMap
  /-- What there is to warn of. -/
  warnings : List String
  deriving DecidableEq, Repr, Inhabited

/-- The stable classes of a sheet's text in a namespace, as an exported object. A blank namespace
has none, and there is a warning. -/
def stableLiteral (css space resource : String) (kind : ScriptKind) : StableLiteral :=
  let map := stableMap css space
  { text := literalText map kind
    map
    warnings := if Text.isBlankString space then [blankSpaceWarning resource] else [] }

end StyleGraph.Stable
