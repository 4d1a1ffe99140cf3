import StyleGraph.Text.Blank

/-!
# Stable class names

A stable name is made of a namespace and a token. The token keeps ASCII letters, digits and
underscores; every run of other characters becomes one hyphen, and none stays at an end.
-/

set_option autoImplicit false

namespace StyleGraph.Stable

/-- The token of a name with nothing to keep. -/
def fallbackToken : String := "stable"

/-- The namespace used when none is given. -/
def defaultNamespace : String := "knighted"

/-- A character kept as it is. -/
def isTokenChar (c : Char) : Bool := c.isAlphanum || c == '_'

/-- Keeps token characters and puts one hyphen for every run of others. `afterHyphen` tells
whether the character before has become a hyphen. -/
def hyphenate (afterHyphen : Bool) : List Char → List Char
  | [] => []
  | c :: rest =>
    if isTokenChar c then c :: hyphenate false rest
    else if afterHyphen then hyphenate true rest
    else '-' :: hyphenate true rest

/-- Drops hyphens at both ends. -/
def trimHyphens (cs : List Char) : List Char :=
  Text.dropEndWhile (· == '-') (cs.dropWhile (· == '-'))

/-- The token of a name. -/
def tokenChars (name : List Char) : List Char :=
  match trimHyphens (hyphenate false (Text.trim name)) with
  | [] => fallbackToken.toList
  | token => token

/-- The token of a name. -/
def token (name : String) : String := String.ofList (tokenChars name.toList)

/-- The stable class of a name; a blank namespace leaves the bare token. -/
def className (name space : String) : String :=
  let lead := Text.trimmed space
  if lead.isEmpty then token name else lead ++ "-" ++ token name

/-- The selector of a stable class. -/
def selectorText (name space : String) : String := "." ++ className name space

end StyleGraph.Stable
