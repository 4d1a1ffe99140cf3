import StyleGraph.Number.Binary64

/-!
# Values of CSS-in-TS modules

What a static evaluation of a CSS-in-TS module computes with. Objects keep the order in which their
keys were first given.
-/

set_option autoImplicit false

namespace StyleGraph.Static

/-- A value. -/
inductive Value
  | text (value : String)
  | number (value : Number.Binary64)
  /-- One or more class names with blanks between them. -/
  | classes (names : String)
  | object (entries : List (String × Value))
  | array (items : List Value)
  | undefined
  /-- The value of a name whose module was not evaluated. -/
  | unresolved (origin : String)
  deriving Repr, Inhabited

/-- Keys and values, each key once, in order. -/
abbrev Entries := List (String × Value)

namespace Entries

/-- The value of a key. -/
def get? : Entries → String → Option Value
  | [], _ => none
  | (k, v) :: rest, key => if k = key then some v else get? rest key

/-- Gives a key a value. A key that is there keeps its place. -/
def insert : Entries → String → Value → Entries
  | [], key, value => [(key, value)]
  | (k, v) :: rest, key, value => if k = key then (k, value) :: rest else (k, v) :: insert rest key value

/-- Gives keys values, one after the other. -/
def extend (entries more : Entries) : Entries :=
  more.foldl (fun entries (key, value) => entries.insert key value) entries

end Entries

/-- The text of a value that can stand in a text. -/
def Value.asText? : Value → Option String
  | .text value => some value
  | .classes names => some names
  | .number value => some value.render
  | _ => none

/-- What is wrong with a CSS-in-TS module. -/
inductive Fault
  | negatedValue
  | templatePart
  | unboundName (name : String)
  | spreadValue
  | irregularItem
  | memberKey
  | indirectCall
  | unsupportedExpression
  | spreadArgument
  | propertyKey
  | unknownMember (key : String)
  | memberOfValue (key : String)
  | variantsNotObject
  | globalSelector
  | globalRule
  | framesNotObject
  | frameNotObject
  | familyName
  | faceNotObject
  | fallbackPart
  | fallbackEmpty
  | themeSelector
  | unknownFunction (name : String)
  | tokenList
  | missingToken (key : String)
  | tokenMismatch
  | rulePart
  | varsNotObject
  | invalidVariable (name : String)
  | invalidValue (key : String)
  | ruleNotObject (key : String)
  | selectorsNotObject
  | conditionsNotObject (key : String)
  deriving DecidableEq, Repr

namespace Fault

/-- The wording of a fault. -/
def message : Fault → String
  | negatedValue => "unary minus on a non-numeric value"
  | templatePart => "template substitution is not a string"
  | unboundName name => "'" ++ name ++ "' is not a top-level binding of this file"
  | spreadValue => "spread of a non-object value"
  | irregularItem => "array holes and spreads are not supported"
  | memberKey => "computed member key is not a string"
  | indirectCall => "only direct calls to style APIs are supported"
  | unsupportedExpression => "unsupported expression"
  | spreadArgument => "spread arguments are not supported"
  | propertyKey => "property key is not a string"
  | unknownMember key => "unknown member '" ++ key ++ "'"
  | memberOfValue key => "member '" ++ key ++ "' of a non-object value"
  | variantsNotObject => "styleVariants expects an object"
  | globalSelector => "globalStyle expects a selector string"
  | globalRule => "globalStyle expects a style object"
  | framesNotObject => "keyframes expects an object"
  | frameNotObject => "keyframe steps must be objects"
  | familyName => "globalFontFace expects a family name"
  | faceNotObject => "font face must be an object"
  | fallbackPart => "fallbackVar expects variables and strings"
  | fallbackEmpty => "fallbackVar expects at least one variable"
  | themeSelector => "createGlobalTheme expects a selector string"
  | unknownFunction name => "'" ++ name ++ "' is not a supported style API"
  | tokenList => "theme tokens must be objects or leaf values"
  | missingToken key => "theme is missing the '" ++ key ++ "' token"
  | tokenMismatch => "theme tokens do not match the contract"
  | rulePart => "style expects objects or class references"
  | varsNotObject => "vars must be an object"
  | invalidVariable name => "invalid value for " ++ name
  | invalidValue key => "invalid value for '" ++ key ++ "'"
  | ruleNotObject key => "'" ++ key ++ "' must be a style object"
  | selectorsNotObject => "selectors must be an object"
  | conditionsNotObject key => "'" ++ key ++ "' must be an object"

end Fault

end StyleGraph.Static
