import StyleGraph.Text.Quoted

/-!
# Written names and strings

How names, strings and addresses are written in a style sheet. A backslash makes any character
part of a name; characters that cannot stand after a backslash, such as digits at the beginning
and controls, are written as hexadecimal escapes with a closing blank.
-/

set_option autoImplicit false

namespace StyleGraph.Css.Ident

/-- A hexadecimal escape. -/
def hexEscape (c : Char) : List Char := '\\' :: Text.hexDigits c.toNat ++ [' ']

/-- A character that a name may hold as it is. -/
def isNameChar (c : Char) : Bool := c.isAlphanum || c == '_' || c == '-' || c.toNat ≥ 128

/-- How a character after the beginning of a name is written. -/
def nameChar (c : Char) : List Char :=
  if isNameChar c then [c]
  else if c.toNat = 0 then ['\ufffd']
  else if c.toNat < 0x20 || c.toNat = 0x7f then hexEscape c
  else ['\\', c]

/-- The continuation of a name. -/
def nameChars (cs : List Char) : List Char := cs.flatMap nameChar

/-- A name. -/
def identChars (cs : List Char) : List Char :=
  match cs with
  | [] => []
  | ['-'] => ['\\', '-']
  | '-' :: '-' :: rest => '-' :: '-' :: nameChars rest
  | '-' :: c :: rest =>
    if c.isDigit then '-' :: hexEscape c ++ nameChars rest else '-' :: nameChars (c :: rest)
  | c :: rest => if c.isDigit then hexEscape c ++ nameChars rest else nameChars (c :: rest)

/-- A name. -/
def render (name : String) : String := String.ofList (identChars name.toList)

/-- The continuation of a name. -/
def renderRest (name : String) : String := String.ofList (nameChars name.toList)

/-- How a character of a string is written. -/
def stringChar (c : Char) : List Char :=
  if c == '"' then ['\\', '"']
  else if c == '\\' then ['\\', '\\']
  else if c.toNat = 0 then ['\ufffd']
  else if c.toNat < 0x20 || c.toNat = 0x7f then hexEscape c
  else [c]

/-- A string in double quotes. -/
def quote (text : String) : String :=
  String.ofList ('"' :: text.toList.flatMap stringChar ++ ['"'])

/-- How a character of an address without quotes is written. -/
def urlChar (c : Char) : List Char :=
  if c.toNat ≤ 0x20 || c.toNat = 0x7f then hexEscape c
  else if c == '(' || c == ')' || c == '"' || c.toNat = 0x27 || c == '\\' then ['\\', c]
  else [c]

/-- An address. The compact form goes without quotes unless quotes make it shorter. -/
def url (compact : Bool) (address : String) : String :=
  let quoted := "url(" ++ quote address ++ ")"
  if !compact then quoted
  else
    let bare := "url(" ++ String.ofList (address.toList.flatMap urlChar) ++ ")"
    if bare.utf8ByteSize > address.utf8ByteSize + 7 && quoted.utf8ByteSize < bare.utf8ByteSize
    then quoted
    else bare

end StyleGraph.Css.Ident
