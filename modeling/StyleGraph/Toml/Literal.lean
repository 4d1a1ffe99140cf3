import StyleGraph.Config.Setting
import StyleGraph.Number.Binary64
import StyleGraph.Number.Power
import StyleGraph.Text.Cut
import StyleGraph.Text.Quoted

/-!
# Literals of TOML

Strings, numbers and moments in time. A string stands between double quotes, with escapes, or
between single quotes, without; three quotes let it run over lines.
-/

set_option autoImplicit false

namespace StyleGraph.Toml

open Config (Setting)

/-- A character that may stand for itself in text on one line. -/
def isPlain (c : Char) : Bool := c == '\t' || (0x20 ≤ c.toNat && c.toNat ≠ 0x7f)

/-- A blank on one line. -/
def isSpace (c : Char) : Bool := c == ' ' || c == '\t'

/-- A character of a bare key. -/
def isBare (c : Char) : Bool := c.isAlphanum || c == '_' || c == '-'

/-- The single quote. -/
def singleQuote : Char := Char.ofNat 0x27

/-- The character with a number in hexadecimal digits. -/
def charOfHex? (digits : List Char) : Option Char := do
  let values ← digits.mapM Text.hexValue?
  let n := values.foldl (fun n value => n * 16 + value) 0
  if n < 0xd800 || (0xe000 ≤ n && n < 0x110000) then some (Char.ofNat n) else none

/-- A text without its escapes. With `lines` it may run over lines. -/
def unescape (lines : Bool) : List Char → Option (List Char)
  | [] => some []
  | '\\' :: 'u' :: a :: b :: c :: d :: rest => do
    some ((← charOfHex? [a, b, c, d]) :: (← unescape lines rest))
  | '\\' :: 'U' :: a :: b :: c :: d :: e :: f :: g :: h :: rest => do
    some ((← charOfHex? [a, b, c, d, e, f, g, h]) :: (← unescape lines rest))
  | '\\' :: c :: rest => do
    let meant ←
      match c with
      | '"' => some '"'
      | '\\' => some '\\'
      | 'b' => some '\x08'
      | 'f' => some '\x0c'
      | 'n' => some '\n'
      | 'r' => some '\r'
      | 't' => some '\t'
      | _ => none
    some (meant :: (← unescape lines rest))
  | c :: rest =>
    if c != '\\' && (isPlain c || (lines && c == '\n')) then (unescape lines rest).map (c :: ·)
    else none

/-- The part before the closing double quote, escapes included. -/
def takeQuoted : List Char → Option (List Char × List Char)
  | [] => none
  | '"' :: rest => some ([], rest)
  | '\\' :: c :: rest => (takeQuoted rest).map fun (part, after) => ('\\' :: c :: part, after)
  | c :: rest => (takeQuoted rest).map fun (part, after) => (c :: part, after)

/-- A string on one line, after its double quote. -/
def readQuoted (cs : List Char) : Option (String × List Char) := do
  let (part, rest) ← takeQuoted cs
  some (String.ofList (← unescape false part), rest)

/-- A string on one line, after its single quote. -/
def readLiteral (cs : List Char) : Option (String × List Char) :=
  match Text.cutFirst singleQuote cs with
  | (part, some rest) => if part.all isPlain then some (String.ofList part, rest) else none
  | (_, none) => none

/-- The part before three closing quotes, of which up to two more before them are part. With
`escapes` a backslash keeps the next character from closing. -/
def takeLong (quote : Char) (escapes : Bool) : List Char → Option (List Char × List Char)
  | [] => none
  | '\\' :: c :: rest =>
    if escapes then
      (takeLong quote escapes rest).map fun (part, after) => ('\\' :: c :: part, after)
    else (takeLong quote escapes (c :: rest)).map fun (part, after) => ('\\' :: part, after)
  | c :: rest =>
    if Text.startsWith [quote, quote, quote] (c :: rest) then
      let more := ((c :: rest).takeWhile (· == quote)).length - 3
      some (List.replicate (min more 2) quote, (c :: rest).drop (3 + min more 2))
    else (takeLong quote escapes rest).map fun (part, after) => (c :: part, after)

/-- A text with a line feed for every line end. -/
def plainLineEnds : List Char → List Char
  | [] => []
  | '\r' :: '\n' :: rest => '\n' :: plainLineEnds rest
  | c :: rest => c :: plainLineEnds rest

/-- Drops a line feed at the beginning. -/
def dropLineEnd : List Char → List Char
  | '\n' :: rest => rest
  | cs => cs

/-- Joins lines: an escaped line end goes with all blanks and line ends after it. While `joining`,
blanks and line ends go. -/
def joinLines (joining : Bool) : List Char → List Char
  | [] => []
  | '\\' :: c :: rest =>
    if ((c :: rest).dropWhile isSpace).head? = some '\n' then joinLines true (c :: rest)
    else '\\' :: c :: joinLines false rest
  | c :: rest =>
    if joining && (isSpace c || c == '\n') then joinLines true rest
    else c :: joinLines false rest

/-- A string over lines, after its three double quotes. -/
def readLongQuoted (cs : List Char) : Option (String × List Char) := do
  let (part, rest) ← takeLong '"' true cs
  let text ← unescape true (joinLines false (dropLineEnd (plainLineEnds part)))
  some (String.ofList text, rest)

/-- A string over lines, after its three single quotes. -/
def readLongLiteral (cs : List Char) : Option (String × List Char) := do
  let (part, rest) ← takeLong singleQuote false cs
  let text := dropLineEnd (plainLineEnds part)
  if text.all fun c => isPlain c || c == '\n' then some (String.ofList text, rest) else none

/-! ## Numbers -/

/-- The digits of a number without the underscores between them; each underscore stands between two
digits. -/
def digitsOf? (isDigit : Char → Bool) (cs : List Char) : Option (List Char) :=
  let runs := Text.cutAll '_' cs
  if runs.all fun run => !run.isEmpty && run.all isDigit then some runs.flatten else none

/-- The number that digits stand for in a base. -/
def natOfDigits (base : Nat) (digits : List Char) : Nat :=
  digits.foldl (fun n c => n * base + (Text.hexValue? c).getD 0) 0

/-- A sign and what follows it. -/
def cutSign : List Char → Option Char × List Char
  | '+' :: rest => (some '+', rest)
  | '-' :: rest => (some '-', rest)
  | cs => (none, cs)

/-- The digits of a decimal whole number, which have no zero before them. -/
def wholeDigits? (cs : List Char) : Option (List Char) := do
  let digits ← digitsOf? Char.isDigit cs
  if cs.head? = some '0' && cs.length > 1 then none else some digits

/-- A number that takes 64 bits with its sign. -/
def fitting? (n : Int) : Option Setting :=
  if -(Number.twoTo 63 : Int) ≤ n ∧ n < Number.twoTo 63 then some (.whole n) else none

/-- A whole number. -/
def wholeOf? (cs : List Char) : Option Setting :=
  let based (base : Nat) (isDigit : Char → Bool) (digits : List Char) : Option Setting := do
    fitting? (natOfDigits base (← digitsOf? isDigit digits))
  match cs with
  | '0' :: 'x' :: digits => based 16 (fun c => (Text.hexValue? c).isSome) digits
  | '0' :: 'o' :: digits => based 8 (fun c => c.isDigit && c.toNat < 0x38) digits
  | '0' :: 'b' :: digits => based 2 (fun c => c == '0' || c == '1') digits
  | _ => do
    let (sign, digits) := cutSign cs
    let n : Int := natOfDigits 10 (← wholeDigits? digits)
    fitting? (if sign = some '-' then -n else n)

/-- Whether a text is a number with a fraction or an exponent that is not too large, or one of the
names of such numbers. -/
def isFraction (cs : List Char) : Bool :=
  let (_, body) := cutSign cs
  if body = "inf".toList || body = "nan".toList then true
  else
    let isMark (c : Char) : Bool := c == 'e' || c == 'E'
    let mantissa := body.takeWhile (!isMark ·)
    let (exponentSign, exponent) := cutSign ((body.dropWhile (!isMark ·)).drop 1)
    let (lead, decimals) := Text.cutFirst '.' mantissa
    let hasExponent := mantissa.length < body.length
    let digits? : Option (List Char × List Char × List Char) := do
      let lead ← wholeDigits? lead
      let decimals ← (decimals.map (digitsOf? Char.isDigit)).getD (some [])
      let exponent ← if hasExponent then digitsOf? Char.isDigit exponent else some []
      some (lead, decimals, exponent)
    match digits? with
    | some (lead, fraction, exponent) =>
      let power : Int := natOfDigits 10 exponent
      let power := if exponentSign = some '-' then -power else power
      (decimals.isSome || hasExponent) &&
        Number.Binary64.ofDecimal (natOfDigits 10 (lead ++ fraction)) (power - fraction.length) ≠
          .infinite
    | none => false

/-! ## Moments in time -/

/-- The number that exactly so many digits stand for. -/
def fixedDigits? (count : Nat) (cs : List Char) : Option Nat :=
  if cs.length = count && cs.all Char.isDigit then some (natOfDigits 10 cs) else none

/-- The number of days of a month. -/
def daysOf (year month : Nat) : Nat :=
  if month = 2 then
    if year % 4 = 0 && (year % 100 ≠ 0 || year % 400 = 0) then 29 else 28
  else if [4, 6, 9, 11].contains month then 30 else 31

/-- Whether a text is a date. -/
def isDate (cs : List Char) : Bool :=
  match Text.cutAll '-' cs with
  | [year, month, day] =>
    match fixedDigits? 4 year, fixedDigits? 2 month, fixedDigits? 2 day with
    | some year, some month, some day =>
      1 ≤ month && month ≤ 12 && 1 ≤ day && day ≤ daysOf year month
    | _, _, _ => false
  | _ => false

/-- Whether a text is a number of two digits that is not above another. -/
def isUpTo (limit : Nat) (cs : List Char) : Bool := (fixedDigits? 2 cs).any (· ≤ limit)

/-- Whether a text is a time of day. -/
def isTime (cs : List Char) : Bool :=
  match Text.cutAll ':' cs with
  | [hour, minute, second] =>
    let (second, fraction) := Text.cutFirst '.' second
    isUpTo 23 hour && isUpTo 59 minute && isUpTo 60 second &&
      fraction.all fun digits => !digits.isEmpty && digits.all Char.isDigit
  | _ => false

/-- Whether a text is a distance between two clocks. -/
def isOffset (cs : List Char) : Bool :=
  match cs with
  | [c] => c == 'Z' || c == 'z'
  | c :: rest =>
    (c == '+' || c == '-') &&
      match Text.cutAll ':' rest with
      | [hour, minute] => isUpTo 23 hour && isUpTo 59 minute
      | _ => false
  | [] => false

/-- Whether a text is a time of day, perhaps with an offset. -/
def isClock (cs : List Char) : Bool :=
  let isEnd (c : Char) : Bool := c == 'Z' || c == 'z' || c == '+' || c == '-'
  let time := cs.takeWhile (!isEnd ·)
  let offset := cs.dropWhile (!isEnd ·)
  isTime time && (offset.isEmpty || isOffset offset)

/-- Whether a text is a moment: a date, a time of day or both. -/
def isMoment (cs : List Char) : Bool :=
  isTime cs || isDate cs ||
    isDate (cs.take 10) && ((cs.drop 10).head?.any fun c => c == 'T' || c == 't' || c == ' ') &&
      isClock (cs.drop 11)

/-- A moment as a setting: a table with the moment's text under a key of its own. -/
def momentSetting (cs : List Char) : Setting :=
  .table [("$__toml_private_datetime", .text (String.ofList cs))]

/-- A character of a number or a moment. -/
def isNumeric (c : Char) : Bool :=
  c.isAlphanum || c == '_' || c == '-' || c == '+' || c == '.' || c == ':'

/-- What a text without blanks stands for. -/
def scalarOf? (cs : List Char) : Option Setting :=
  if cs = "true".toList then some (.flag true)
  else if cs = "false".toList then some (.flag false)
  else if isMoment cs then some (momentSetting cs)
  else if isFraction cs then some .fraction
  else wholeOf? cs

/-- A truth value, number or moment. A blank may stand between a date and a time. -/
def readScalar (cs : List Char) : Option (Setting × List Char) :=
  let word := cs.takeWhile isNumeric
  let rest := cs.dropWhile isNumeric
  let time := (rest.drop 1).takeWhile isNumeric
  if isDate word && rest.head? = some ' ' && time.head?.any Char.isDigit then
    let moment := word ++ ' ' :: time
    if isMoment moment then some (momentSetting moment, (rest.drop 1).dropWhile isNumeric) else none
  else (scalarOf? word).map fun setting => (setting, rest)

end StyleGraph.Toml
