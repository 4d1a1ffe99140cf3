import StyleGraph.Text.Blank
import StyleGraph.Toml.Literal

/-!
# Settings from the environment

A variable whose name begins with a prefix of the program is a setting. The rest of its name is the
path of the setting, with two underscores between keys; letter case does not count. Its value is
written like a value of TOML without quotes where they are not needed: what cannot be read is a
text as it stands.
-/

set_option autoImplicit false

namespace StyleGraph.Config.Environment

/-- The beginning of the names of variables that are settings, in small letters. -/
def namePrefix : String := "knighted_css_"

/-- A blank between the parts of a value. -/
def isGap (c : Char) : Bool :=
  c == ' ' || c == '\t' || c == '\n' || c == '\r' || c.toNat == 0x0c

/-- What follows blanks. -/
def skipGaps (cs : List Char) : List Char := cs.dropWhile isGap

/-- A character that ends a text without quotes. -/
def isMark (c : Char) : Bool :=
  c == ',' || c == '[' || c == ']' || c.toNat == 0x7b || c.toNat == 0x7d

/-- A sign and what follows it; a plus counts as no sign. -/
def cutSign : List Char → Bool × List Char
  | '-' :: rest => (true, rest)
  | '+' :: rest => (false, rest)
  | cs => (false, cs)

/-- The number that decimal digits stand for. -/
def natOf? (digits : List Char) : Option Nat :=
  if digits.isEmpty || !digits.all Char.isDigit then none
  else some (Toml.natOfDigits 10 digits)

/-- A whole number that takes 64 bits with or without a sign. -/
def wholeOf? (cs : List Char) : Option Int := do
  let (negative, digits) := cutSign cs
  let n : Int ← natOf? digits
  let n := if negative then -n else n
  if Setting.isWhole n then some n else none

/-- Whether a text is a number with a point. -/
def isFraction (cs : List Char) : Bool :=
  let isExponent (c : Char) : Bool := c == 'e' || c == 'E'
  let (_, body) := cutSign cs
  let mantissa := body.takeWhile (!isExponent ·)
  let exponent := (cutSign ((body.dropWhile (!isExponent ·)).drop 1)).2
  match Text.cutFirst '.' mantissa with
  | (whole, some decimals) =>
    (whole ++ decimals).all Char.isDigit && !(whole ++ decimals).isEmpty &&
      (mantissa.length = body.length || (natOf? exponent).isSome)
  | (_, none) => false

/-- What a text without quotes stands for. -/
def bareSetting (cs : List Char) : Setting :=
  let cs := Text.trim cs
  if isFraction cs then .fraction
  else
    match wholeOf? cs with
    | some n => .whole n
    | none => .text (String.ofList cs)

/-- A key of a table. -/
def readKey (cs : List Char) : Option (String × List Char) :=
  match cs with
  | '"' :: rest => Toml.readQuoted rest
  | _ =>
    let key := cs.takeWhile Toml.isBare
    if key.isEmpty then none else some (String.ofList key, cs.dropWhile Toml.isBare)

mutual

/-- A value with the blanks around it. `fuel` bounds the number of steps. -/
def readValue : Nat → List Char → Option (Setting × List Char)
  | 0, _ => none
  | fuel + 1, cs => do
    let (setting, rest) ←
      match skipGaps cs with
      | 't' :: 'r' :: 'u' :: 'e' :: rest => some (.flag true, rest)
      | 'f' :: 'a' :: 'l' :: 's' :: 'e' :: rest => some (.flag false, rest)
      | '\x7b' :: rest =>
        (readMembers fuel [] rest).map fun (members, rest) => (.table members, rest)
      | '[' :: rest => (readItems fuel [] rest).map fun (items, rest) => (.list items, rest)
      | '"' :: rest => (Toml.readQuoted rest).map fun (text, rest) => (.text text, rest)
      | cs =>
        if cs.head? = some Toml.singleQuote then
          match cs.drop 1 with
          | c :: quote :: rest =>
            if quote = Toml.singleQuote then some (.text (String.singleton c), rest) else none
          | _ => none
        else some (bareSetting (cs.takeWhile (!isMark ·)), cs.dropWhile (!isMark ·))
    some (setting, skipGaps rest)

/-- The items of a list, up to its closing bracket. -/
def readItems : Nat → List Setting → List Char → Option (List Setting × List Char)
  | 0, _, _ => none
  | fuel + 1, items, cs =>
    match cs with
    | ']' :: rest => some (items.reverse, rest)
    | cs => do
      let (item, rest) ← readValue fuel cs
      match rest with
      | ',' :: rest => readItems fuel (item :: items) rest
      | ']' :: rest => some ((item :: items).reverse, rest)
      | _ => none

/-- The members of a table, up to its closing brace. Of two members with one key the later counts. -/
def readMembers : Nat → List (String × Setting) → List Char →
    Option (List (String × Setting) × List Char)
  | 0, _, _ => none
  | fuel + 1, members, cs =>
    match cs with
    | '\x7d' :: rest => some (members, rest)
    | cs => do
      let (key, rest) ← readKey (skipGaps cs)
      match skipGaps rest with
      | '=' :: rest => do
        let (setting, rest) ← readValue fuel rest
        let members := (members.filter fun member => member.1 ≠ key) ++ [(key, setting)]
        match rest with
        | ',' :: rest => readMembers fuel members rest
        | '\x7d' :: rest => some (members, rest)
        | _ => none
      | _ => none

end

/-- The setting that a value stands for. -/
def settingOf (value : String) : Setting :=
  let cs := value.toList
  match readValue (2 * cs.length + 2) cs with
  | some (setting, []) => setting
  | _ => .text value

/-- The path of the setting that a variable is, if it is one. Every key has a name. -/
def pathOf? (name : String) : Option (List String) := do
  let name := (Text.trim name.toList).map Char.toLower
  let rest ← Text.stripStart? namePrefix.toList name
  let rest := Text.replaceAll ['_', '_'] ['.'] rest
  let keys := Text.cutAll '.' (Text.trim rest)
  if keys.any List.isEmpty then none else some (keys.map String.ofList)

/-- The layer that the variables of an environment make, later ones over earlier ones. -/
def layer (environment : List (String × String)) : Setting :=
  environment.foldl (fun settings (name, value) =>
    match pathOf? name with
    | some path => settings.overlay ((settingOf value).under path)
    | none => settings) (.table [])

end StyleGraph.Config.Environment
