import StyleGraph.Json.Basic
import StyleGraph.Number.Power

/-!
# Settings

A setting is a value of a configuration, whatever the configuration is written in. Configurations
come in layers: where two layers both have a table, the tables are overlaid member by member, and
elsewhere the later layer counts.
-/

set_option autoImplicit false

namespace StyleGraph.Config

/-- A value of a configuration. The keys of a table differ. -/
inductive Setting
  | null
  | flag (value : Bool)
  /-- A whole number. -/
  | whole (value : Int)
  /-- Another number. No setting is one, so it does not matter which it is. -/
  | fraction
  | text (value : String)
  | list (items : List Setting)
  | table (members : List (String × Setting))
  deriving Repr, Inhabited

namespace Setting

/-- The value of a member. -/
def member? (members : List (String × Setting)) (key : String) : Option Setting :=
  (members.find? fun member => member.1 = key).map Prod.snd

/-- The whole numbers of a configuration, which take 64 bits with or without a sign. -/
def isWhole (n : Int) : Bool := decide (-(Number.twoTo 63 : Int) ≤ n) && decide (n < Number.twoTo 64)

mutual

/-- The setting that a JSON value is. -/
def ofJson : Json → Setting
  | .null => .null
  | .bool value => .flag value
  | .int value => if isWhole value then .whole value else .fraction
  | .decimal _ _ => .fraction
  | .str value => .text value
  | .arr items => .list (ofItems items)
  | .obj members => .table (ofMembers members)

/-- The settings that the items of an array are. -/
def ofItems : List Json → List Setting
  | [] => []
  | item :: rest => ofJson item :: ofItems rest

/-- The settings that the members of an object are. Of two members with one key the later counts. -/
def ofMembers : List (String × Json) → List (String × Setting)
  | [] => []
  | (key, value) :: rest =>
    let others := ofMembers rest
    if (member? others key).isSome then others else (key, ofJson value) :: others

end

mutual

/-- A setting of a layer with that of a later layer over it. -/
def overlay : Setting → Setting → Setting
  | .table members, .table upper =>
    .table (overlayMembers members upper ++
      upper.filter fun member => (member? members member.1).isNone)
  | _, upper => upper

/-- The members of a table with those over it that another table has too. -/
def overlayMembers : List (String × Setting) → List (String × Setting) → List (String × Setting)
  | [], _ => []
  | (key, value) :: rest, upper =>
    let member :=
      match member? upper key with
      | some other => overlay value other
      | none => value
    (key, member) :: overlayMembers rest upper

end

/-- A setting inside tables, one for each key of a path. -/
def under (path : List String) (setting : Setting) : Setting :=
  path.foldr (fun key inner => .table [(key, inner)]) setting

end Setting

end StyleGraph.Config
