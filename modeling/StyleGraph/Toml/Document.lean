import StyleGraph.Config.Setting

/-!
# Documents of TOML

A table is defined once: by a header, by a key with dots, or inside braces. A header may still
define a table that so far only stood on the way to another one.
-/

set_option autoImplicit false

namespace StyleGraph.Toml

open Config (Setting)

/-- How a table came to be. -/
inductive Origin
  /-- It was defined. -/
  | defined
  /-- It stood on the way to a table that was defined. -/
  | passed
  /-- It stood on the way to a value, in a key with dots. -/
  | dotted
  deriving DecidableEq, Repr, Inhabited

/-- A part of a document. -/
inductive Node
  | value (setting : Setting)
  | table (origin : Origin) (members : List (String × Node))
  /-- Tables that are defined one after the other under one name. -/
  | tables (items : List (List (String × Node)))
  deriving Repr, Inhabited

/-- The members of a table. -/
abbrev Members := List (String × Node)

namespace Members

/-- The member with a key. -/
def get? (members : Members) (key : String) : Option Node :=
  (members.find? fun member => member.1 = key).map Prod.snd

/-- Puts a member in the place of the one with its key, or after all others. -/
def put (members : Members) (key : String) (node : Node) : Members :=
  match members with
  | [] => [(key, node)]
  | member :: rest =>
    if member.1 = key then (key, node) :: rest else member :: Members.put rest key node

end Members

/-- Changes the table at the end of a path, whose origin and members are given to `change`. Tables on
the way that do not exist come to be with the origin `way`; where a name has several tables the last
one is meant. A key with dots does not lead through tables that are defined. -/
def descend (way : Origin) (change : Origin → Members → Option Members) :
    List String → Origin → Members → Option Members
  | [], origin, members => change origin members
  | key :: path, _, members =>
    match Members.get? members key with
    | none =>
      (descend way change path way []).map fun inner =>
        Members.put members key (.table way inner)
    | some (.table origin inner) =>
      if way = .dotted && origin = .defined then none
      else
        (descend way change path origin inner).map fun inner =>
          Members.put members key (.table origin inner)
    | some (.tables items) =>
      match items.getLast? with
      | none => none
      | some last =>
        (descend way change path .defined last).map fun inner =>
          Members.put members key (.tables (items.dropLast ++ [inner]))
    | some (.value _) => none

/-- Adds a value under a key of a table. A table in which keys with dots come to be takes no others. -/
def addValue (path : List String) (key : String) (setting : Setting) (origin : Origin)
    (members : Members) : Option Members :=
  descend .dotted (fun origin members =>
    if origin = .dotted ↔ path = [] then none
    else if (Members.get? members key).isSome then none
    else some (Members.put members key (.value setting))) path origin members

/-- Defines a table. -/
def addTable (key : String) (members : Members) : Option Members :=
  match Members.get? members key with
  | none => some (Members.put members key (.table .defined []))
  | some (.table .passed inner) => some (Members.put members key (.table .defined inner))
  | some _ => none

/-- Defines one more table under a name. -/
def addItem (key : String) (members : Members) : Option Members :=
  match Members.get? members key with
  | none => some (Members.put members key (.tables [[]]))
  | some (.tables items) => some (Members.put members key (.tables (items ++ [[]])))
  | some _ => none

mutual

/-- The setting that a part of a document is. -/
def Node.setting : Node → Setting
  | .value setting => setting
  | .table _ members => .table (membersSettings members)
  | .tables items => .list (itemsSettings items)

/-- The settings that the members of a table are. -/
def membersSettings : List (String × Node) → List (String × Setting)
  | [] => []
  | (key, node) :: rest => (key, node.setting) :: membersSettings rest

/-- The settings that tables are. -/
def itemsSettings : List (List (String × Node)) → List Setting
  | [] => []
  | members :: rest => .table (membersSettings members) :: itemsSettings rest

end

end StyleGraph.Toml
