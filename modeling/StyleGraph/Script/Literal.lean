import StyleGraph.Number.Binary64
import StyleGraph.Text.Category
import StyleGraph.Text.Quoted

/-!
# Literals of scripts

Strings, pieces of templates, numbers and words, each read from the beginning of a text. A reading
gives the value and the rest of the text, or nothing when the text is not such a literal.
-/

set_option autoImplicit false

namespace StyleGraph.Script.Literal

/-- Line feed, carriage return, and the two separators of Unicode. -/
def isLineEnd (c : Char) : Bool :=
  c.toNat = 0x0a || c.toNat = 0x0d || c.toNat = 0x2028 || c.toNat = 0x2029

/-- Characters that separate lexemes and stay on the line. -/
def isSpace (c : Char) : Bool :=
  c.toNat = 0x09 || c.toNat = 0x0b || c.toNat = 0x0c || c.toNat = 0x20 || c.toNat = 0xa0 ||
    c.toNat = 0xfeff || (c.toNat ≥ 128 && Text.category c = ⟨'Z', 's'⟩)

/-- Characters that may begin a word. -/
def isWordStart (c : Char) : Bool := c = '$' || c = '_' || Text.isIdentifierStart c

/-- Characters that may continue a word. -/
def isWordPart (c : Char) : Bool :=
  c = '$' || Text.isIdentifierContinue c || c.toNat = 0x200c || c.toNat = 0x200d

/-- The value of digits in a base. -/
def valueOf (base : Nat) (digits : List Char) : Nat :=
  digits.foldl (fun value c => value * base + (Text.hexValue? c).getD 0) 0

/-- Whether a character is a digit in a base of at most 16. -/
def isDigitOf (base : Nat) (c : Char) : Bool :=
  match Text.hexValue? c with
  | some value => value < base
  | none => false

/-- The code point that follows `\u`: four digits, or digits in braces. -/
def codePoint? : List Char → Option (Nat × List Char)
  | '{' :: rest =>
    let digits := rest.takeWhile (isDigitOf 16)
    match rest.dropWhile (isDigitOf 16) with
    | '}' :: after =>
      let value := valueOf 16 digits
      if digits.isEmpty || value > 0x10ffff then none else some (value, after)
    | _ => none
  | rest =>
    let digits := rest.take 4
    if digits.length = 4 && digits.all (isDigitOf 16) then some (valueOf 16 digits, rest.drop 4)
    else none

/-- The character of `\u` and what follows it. Two halves of a pair are one character; a half by
itself is replaced. -/
def unicodeEscape? (cs : List Char) : Option (Char × List Char) := do
  let (value, rest) ← codePoint? cs
  let alone := (if 0xd800 ≤ value && value ≤ 0xdfff then Char.ofNat 0xfffd else Char.ofNat value, rest)
  if 0xd800 ≤ value && value ≤ 0xdbff then
    match rest with
    | '\\' :: 'u' :: more =>
      match codePoint? more with
      | some (low, after) =>
        if 0xdc00 ≤ low && low ≤ 0xdfff then
          some (Char.ofNat (0x10000 + (value - 0xd800) * 1024 + (low - 0xdc00)), after)
        else some alone
      | none => some alone
    | _ => some alone
  else some alone

/-- The characters that an escape stands for; the backslash has been read. Digits are allowed as
octal escapes in strings and refused in templates, a lone `\0` apart. -/
def escape? (octal : Bool) : List Char → Option (List Char × List Char)
  | [] => none
  | 'n' :: rest => some (['\n'], rest)
  | 't' :: rest => some (['\t'], rest)
  | 'r' :: rest => some (['\r'], rest)
  | 'b' :: rest => some ([Char.ofNat 0x08], rest)
  | 'v' :: rest => some ([Char.ofNat 0x0b], rest)
  | 'f' :: rest => some ([Char.ofNat 0x0c], rest)
  | 'x' :: a :: b :: rest =>
    if isDigitOf 16 a && isDigitOf 16 b then some ([Char.ofNat (valueOf 16 [a, b])], rest) else none
  | 'x' :: _ => none
  | 'u' :: rest => (unicodeEscape? rest).map fun (c, after) => ([c], after)
  | '\r' :: '\n' :: rest => some ([], rest)
  | c :: rest =>
    if isLineEnd c then some ([], rest)
    else if isDigitOf 10 c then
      if c = '0' && !(rest.head?.any (isDigitOf 10)) then some ([Char.ofNat 0], rest)
      else if !octal then none
      else if isDigitOf 8 c then
        let most := if c ≤ '3' then 3 else 2
        let digits := ((c :: rest).take most).takeWhile (isDigitOf 8)
        some ([Char.ofNat (valueOf 8 digits)], (c :: rest).drop digits.length)
      else some ([c], rest)
    else some ([c], rest)

/-- The value of a string up to its closing quote, which is `quote`; the opening one has been
read. The text itself bounds the number of steps. -/
def string? (quote : Char) (cs : List Char) : Option (String × List Char) :=
  go cs cs []
where
  go : List Char → List Char → List Char → Option (String × List Char)
    | _ :: bound, c :: rest, read =>
      if c = quote then some (String.ofList read.reverse, rest)
      else if c = '\\' then
        match escape? true rest with
        | some (value, after) => go bound after (value.reverse ++ read)
        | none => none
      else if c.toNat = 0x0a || c.toNat = 0x0d then none
      else go bound rest (c :: read)
    | _, _, _ => none

/-- How a piece of a template ends. -/
inductive PieceEnd
  /-- The closing backtick. -/
  | closed
  /-- The beginning of an expression. -/
  | expression
  deriving DecidableEq, Repr

/-- A piece of a template: its value unless an escape has none, how it ends, and the rest. The text
itself bounds the number of steps. -/
def piece? (cs : List Char) : Option (Option String × PieceEnd × List Char) :=
  go cs cs (some [])
where
  finished (read : Option (List Char)) : Option String :=
    read.map fun value => String.ofList value.reverse
  go : List Char → List Char → Option (List Char) → Option (Option String × PieceEnd × List Char)
    | _ :: _, '\x60' :: rest, read => some (finished read, .closed, rest)
    | _ :: _, '$' :: '{' :: rest, read => some (finished read, .expression, rest)
    | _ :: bound, '\\' :: rest, read =>
      match escape? false rest with
      | some (value, after) => go bound after (read.map (value.reverse ++ ·))
      | none => go bound (rest.drop 1) none
    | _ :: bound, '\r' :: '\n' :: rest, read => go bound ('\n' :: rest) read
    | _ :: bound, '\r' :: rest, read => go bound rest (read.map ('\n' :: ·))
    | _ :: bound, c :: rest, read => go bound rest (read.map (c :: ·))
    | _, _, _ => none

/-- Digits of a base with single separators `_` between them. At least one digit. -/
def digits? (base : Nat) (cs : List Char) : Option (List Char × List Char) :=
  let isPart (c : Char) : Bool := isDigitOf base c || c = '_'
  let run := cs.takeWhile isPart
  if run.isEmpty || run.head? == some '_' || run.getLast? == some '_' then none
  else if (run.zip (run.drop 1)).any fun (a, b) => a = '_' && b = '_' then none
  else some (run.filter (· != '_'), cs.dropWhile isPart)

/-- The exponent of a decimal number, zero if there is none. -/
def exponent? : List Char → Option (Int × List Char)
  | e :: rest =>
    if e = 'e' || e = 'E' then
      let (negative, body) :=
        match rest with
        | '-' :: body => (true, body)
        | '+' :: body => (false, body)
        | body => (false, body)
      match digits? 10 body with
      | some (ds, after) =>
        let value : Int := valueOf 10 ds
        some (if negative then -value else value, after)
      | none => none
    else some (0, e :: rest)
  | [] => some (0, [])

/-- The digits of a fraction after its point, which may be none. -/
def fraction? (cs : List Char) : Option (List Char × List Char) :=
  if cs.head?.any (fun c => isDigitOf 10 c || c = '_') then digits? 10 cs else some ([], cs)

/-- A number, unless it is written with a suffix as a whole number of any size. -/
abbrev Numeral := Option Number.Binary64

/-- A whole number of a base, which the suffix `n` may follow. -/
def whole? (base : Nat) (cs : List Char) : Option (Numeral × List Char) := do
  let (ds, rest) ← digits? base cs
  match rest with
  | 'n' :: after => some (none, after)
  | rest => some (some ⟨false, Number.Binary64.ofNat (valueOf base ds)⟩, rest)

/-- A decimal number of the given leading digits, before its point or exponent. -/
def decimal? (leading : List Char) (rest : List Char) : Option (Numeral × List Char) := do
  let (places, rest) ←
    match rest with
    | '.' :: rest => fraction? rest
    | rest => some ([], rest)
  if leading.isEmpty && places.isEmpty then none
  else
    let (power, rest) ← exponent? rest
    let magnitude := Number.Binary64.ofDecimal (valueOf 10 (leading ++ places))
      (power - (places.length : Int))
    some (some ⟨false, magnitude⟩, rest)

/-- A number that begins with a zero: in base 16, 8 or 2 by its letter, in base 8 when only octal
digits follow, else decimal. -/
def afterZero? (rest : List Char) : Option (Numeral × List Char) :=
  match rest with
  | 'x' :: body | 'X' :: body => whole? 16 body
  | 'o' :: body | 'O' :: body => whole? 8 body
  | 'b' :: body | 'B' :: body => whole? 2 body
  | 'n' :: after => some (none, after)
  | rest =>
    let run := rest.takeWhile (isDigitOf 10)
    if run.isEmpty then decimal? ['0'] rest
    else if run.all (isDigitOf 8) then
      some (some ⟨false, Number.Binary64.ofNat (valueOf 8 run)⟩, rest.dropWhile (isDigitOf 10))
    else decimal? run (rest.dropWhile (isDigitOf 10))

/-- A number. No word and no digit may follow it at once. -/
def numeral? (cs : List Char) : Option (Numeral × List Char) := do
  let (value, rest) ←
    match cs with
    | '0' :: rest => afterZero? rest
    | '.' :: _ => decimal? [] cs
    | cs => do
      let (leading, rest) ← digits? 10 cs
      match rest with
      | 'n' :: after => some (none, after)
      | rest => decimal? leading rest
  if rest.head?.any (fun c => isWordStart c || isDigitOf 10 c || c = '\\') then none
  else some (value, rest)

/-- A word, and whether an escape was needed to write it. The text itself bounds the number of
steps. -/
def word? (cs : List Char) : Option (String × Bool × List Char) :=
  go cs cs [] false
where
  finished (cs read : List Char) (escaped : Bool) : Option (String × Bool × List Char) :=
    if read.isEmpty then none else some (String.ofList read.reverse, escaped, cs)
  fits (read : List Char) (c : Char) : Bool := if read.isEmpty then isWordStart c else isWordPart c
  go : List Char → List Char → List Char → Bool → Option (String × Bool × List Char)
    | _ :: bound, '\\' :: 'u' :: rest, read, _ =>
      match unicodeEscape? rest with
      | some (c, after) => if fits read c then go bound after (c :: read) true else none
      | none => none
    | _ :: bound, c :: rest, read, escaped =>
      if fits read c then go bound rest (c :: read) escaped else finished (c :: rest) read escaped
    | _, cs, read, escaped => finished cs read escaped

/-- Flags of a pattern literal, each given at most once, and what follows them. -/
def patternFlags? (cs : List Char) : Option (List Char) :=
  let given := cs.takeWhile isWordPart
  if given.all (fun c => "dgimsuvy".toList.contains c) && given.eraseDups.length = given.length then
    some (cs.dropWhile isWordPart)
  else none

/-- What follows a pattern literal, its opening slash having been read. A slash inside a set in
brackets does not close it; the flag tells of such a set. -/
def patternRest? : Bool → List Char → Option (List Char)
  | _, [] => none
  | inSet, '\\' :: c :: rest => if isLineEnd c then none else patternRest? inSet rest
  | inSet, c :: rest =>
    if isLineEnd c then none
    else if c = '[' then patternRest? true rest
    else if c = ']' then patternRest? false rest
    else if c = '/' && !inSet then patternFlags? rest
    else patternRest? inSet rest

/-- What follows a pattern literal, its opening slash having been read. -/
def pattern? (cs : List Char) : Option (List Char) := patternRest? false cs

end StyleGraph.Script.Literal
