import StyleGraph.Text.Quoted

/-!
# JSON values

A JSON value keeps the order of its object members and tells whole numbers from decimal ones. Of
two members with one key the later counts.
-/

set_option autoImplicit false

namespace StyleGraph

/-- A JSON value. -/
inductive Json
  | null
  | bool (value : Bool)
  /-- A number written without fraction and exponent. -/
  | int (value : Int)
  /-- The number `mantissa · 10 ^ exponent`, written with a fraction or an exponent. -/
  | decimal (mantissa exponent : Int)
  | str (value : String)
  | arr (items : List Json)
  | obj (members : List (String × Json))
  deriving Repr, Inhabited

namespace Json

/-- The value of an object's member. -/
def field? (json : Json) (key : String) : Option Json :=
  match json with
  | .obj members => (members.reverse.find? fun member => member.1 == key).map Prod.snd
  | _ => none

/-- A string's text. -/
def str? : Json → Option String
  | .str value => some value
  | _ => none

/-- A truth value. -/
def bool? : Json → Option Bool
  | .bool value => some value
  | _ => none

/-- The items of an array. -/
def arr? : Json → Option (List Json)
  | .arr items => some items
  | _ => none

/-- The members of an object. -/
def obj? : Json → Option (List (String × Json))
  | .obj members => some members
  | _ => none

/-- Whether a value is `null`. -/
def isNull : Json → Bool
  | .null => true
  | _ => false

/-- The text of an optional string. -/
def ofStr? : Option String → Json
  | some value => .str value
  | none => .null

mutual

/-- The shortest written form. -/
def compress : Json → String
  | .null => "null"
  | .bool true => "true"
  | .bool false => "false"
  | .int value => toString value
  | .decimal mantissa exponent => toString mantissa ++ "e" ++ toString exponent
  | .str value => Text.quote value
  | .arr items => "[" ++ String.intercalate "," (compressItems items) ++ "]"
  | .obj members => "\x7b" ++ String.intercalate "," (compressMembers members) ++ "\x7d"

/-- The written forms of items. -/
def compressItems : List Json → List String
  | [] => []
  | item :: items => compress item :: compressItems items

/-- The written forms of members. -/
def compressMembers : List (String × Json) → List String
  | [] => []
  | (key, value) :: members => (Text.quote key ++ ":" ++ compress value) :: compressMembers members

end

end Json

end StyleGraph
