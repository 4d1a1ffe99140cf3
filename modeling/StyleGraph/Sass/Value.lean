import StyleGraph.Number.Power
import StyleGraph.Text.Cut
import StyleGraph.Text.Quoted

/-!
# Values of Sass

A value is a word, a number, a string, a call or a list of values. It is written as an expression,
which may also name variables and reckon with numbers. Comparisons, logic, interpolation and calls
of Sass's own functions are refused.
-/

set_option autoImplicit false

namespace StyleGraph.Sass

/-- Why a sheet is refused. -/
inductive Refusal
  /-- The text is not a sheet, or uses more of Sass than is known here. -/
  | malformed
  /-- A file cannot be read as text. -/
  | unread (path : String)
  | undefinedVariable (name : String)
  | undefinedModule (name : String)
  /-- Two modules with one name. -/
  | repeatedModule (name : String)
  /-- A module that is not there. -/
  | missingModule (url : String)
  /-- A module that uses itself. -/
  | moduleLoop (path : String)
  deriving DecidableEq, Repr

/-- The wording of a refusal. -/
def Refusal.message : Refusal → String
  | .malformed => "The stylesheet cannot be read"
  | .unread path => "Cannot open " ++ path
  | .undefinedVariable name => "Undefined variable: $" ++ name
  | .undefinedModule name => "There is no module with the namespace " ++ name
  | .repeatedModule name => "There is already a module with the namespace " ++ name
  | .missingModule url => "Cannot find the module " ++ url
  | .moduleLoop path => "Module loop at " ++ path

/-- What stands between the items of a list. -/
inductive Separator
  | space
  | comma
  | slash
  deriving DecidableEq, Repr, Inhabited

/-- The written form of a separator. -/
def Separator.text : Separator → String
  | .space => " "
  | .comma => ", "
  | .slash => "/"

/-- A number with its unit. It is kept as a quotient, so that nothing is rounded before the number
is written. -/
structure Amount where
  num : Int
  den : Nat := 1
  unit : String := ""
  deriving DecidableEq, Repr, Inhabited

/-- What is reckoned with numbers. -/
inductive Operation
  | add
  | subtract
  | multiply
  | divide
  | remainder
  deriving DecidableEq, Repr, Inhabited

namespace Amount

/-- Digits without the zeros at their end. -/
def dropEndZeros (digits : List Char) : List Char :=
  (digits.reverse.dropWhile (· == '0')).reverse

/-- A number in its shortest form, with at most ten decimals. -/
def text (amount : Amount) : String :=
  let scaled := (2 * amount.num.natAbs * Number.tenTo 10 + amount.den) / (2 * amount.den)
  let fraction := Nat.toDigits 10 (scaled % Number.tenTo 10)
  let fraction := dropEndZeros (List.replicate (10 - fraction.length) '0' ++ fraction)
  let lead := if amount.num < 0 && scaled ≠ 0 then "-" else ""
  lead ++ toString (scaled / Number.tenTo 10) ++
    (if fraction.isEmpty then "" else "." ++ String.ofList fraction) ++ amount.unit

/-- The unit of a sum: one that both numbers have, or that one of them has alone. -/
def sharedUnit? (a b : Amount) : Option String :=
  if a.unit = b.unit || b.unit = "" then some a.unit
  else if a.unit = "" then some b.unit
  else none

/-- Two numbers put together. Nothing if their units do not go together, or if zero would divide. -/
def combine? (operation : Operation) (a b : Amount) : Option Amount :=
  match operation with
  | .add =>
    (a.sharedUnit? b).map fun unit => ⟨a.num * b.den + b.num * a.den, a.den * b.den, unit⟩
  | .subtract =>
    (a.sharedUnit? b).map fun unit => ⟨a.num * b.den - b.num * a.den, a.den * b.den, unit⟩
  | .multiply =>
    if a.unit = "" || b.unit = "" then
      some ⟨a.num * b.num, a.den * b.den, a.unit ++ b.unit⟩
    else none
  | .divide =>
    let quotient : Amount := ⟨a.num * b.den * b.num.sign, a.den * b.num.natAbs, a.unit⟩
    if b.num = 0 then none
    else if b.unit = "" then some quotient
    else if a.unit = b.unit then some { quotient with unit := "" }
    else none
  | .remainder =>
    if b.num = 0 then none
    else
      (a.sharedUnit? b).map fun unit =>
        ⟨Int.fmod (a.num * b.den) (b.num * a.den), a.den * b.den, unit⟩

end Amount

/-- A written value. -/
inductive Expr
  /-- A name or a color. -/
  | word (text : String)
  | number (amount : Amount)
  | quoted (text : String)
  /-- A variable, perhaps of a module. -/
  | variable (space : Option String) (name : String)
  | call (name : String) (args : List Expr)
  | list (separator : Separator) (items : List Expr)
  | binary (operation : Operation) (left right : Expr)
  /-- An expression in parentheses. -/
  | group (inner : Expr)
  deriving Repr, Inhabited

/-- A value. -/
inductive Value
  | word (text : String)
  | number (amount : Amount)
  | quoted (text : String)
  | call (name : String) (args : List Value)
  | list (separator : Separator) (items : List Value)
  deriving Repr, Inhabited

namespace Value

/-- Whether a value is nothing, so that a property with it is left out. -/
def isNull : Value → Bool
  | word text => text = "null"
  | _ => false

/-- The quote that a string is written with: a double one, unless only that one is in the string. -/
def quoteFor (text : List Char) : Char :=
  if text.contains '"' && !text.contains (Char.ofNat 0x27) then Char.ofNat 0x27 else '"'

/-- The written form of a string. -/
def quotedText (text : String) : String :=
  let cs := text.toList
  let quote := quoteFor cs
  String.ofList (quote :: cs.flatMap (fun c => if c = quote || c = '\\' then ['\\', c] else [c]) ++
    [quote])

mutual

/-- The written form of a value. -/
def css : Value → String
  | word text => text
  | number amount => amount.text
  | quoted text => quotedText text
  | call name args => name ++ "(" ++ String.intercalate ", " (cssAll args) ++ ")"
  | list separator items => String.intercalate separator.text (cssAll items)

/-- The written forms of values. -/
def cssAll : List Value → List String
  | [] => []
  | value :: rest => css value :: cssAll rest

end

/-- Two values put together, which have to be numbers. -/
def reckon (operation : Operation) : Value → Value → Except Refusal Value
  | .number a, .number b =>
    match a.combine? operation b with
    | some amount => .ok (.number amount)
    | none => .error .malformed
  | _, _ => .error .malformed

/-- Whether a value is a number. -/
def isNumber : Value → Bool
  | number _ => true
  | _ => false

/-- A value as a variable keeps it: slashes between numbers divide. -/
def divided : Value → Except Refusal Value
  | .list .slash (first :: rest) =>
    if first.isNumber && rest.all isNumber then rest.foldlM (reckon .divide) first
    else .ok (.list .slash (first :: rest))
  | value => .ok value

end Value

mutual

/-- The value of an expression, given the values of variables. -/
def Expr.value (look : Option String → String → Except Refusal Value) : Expr → Except Refusal Value
  | .word text => .ok (.word text)
  | .number amount => .ok (.number amount)
  | .quoted text => .ok (.quoted text)
  | .variable space name => look space name
  | .binary operation left right => do
    let left ← left.value look
    let right ← right.value look
    left.reckon operation right
  | .group inner => inner.value look
  | .call name args => (valuesOf look args).map (Value.call name)
  | .list separator items => (valuesOf look items).map (Value.list separator)

/-- The values of expressions. -/
def valuesOf (look : Option String → String → Except Refusal Value) :
    List Expr → Except Refusal (List Value)
  | [] => .ok []
  | expr :: rest => do
    let value ← expr.value look
    let values ← valuesOf look rest
    .ok (value :: values)

end

/-! ## Reading expressions -/

/-- A blank. -/
def isSpace (c : Char) : Bool :=
  c == ' ' || c == '\t' || c == '\n' || c == '\r' || c.toNat == 0x0c

/-- A character that a name may begin with. -/
def isNameStart (c : Char) : Bool := c.isAlpha || c == '_' || c.toNat ≥ 0x80

/-- A character of a name. -/
def isNameChar (c : Char) : Bool := isNameStart c || c.isDigit || c == '-'

/-- What follows blanks and comments. -/
def skipBlanks : List Char → List Char := go false
where
  /-- `inside` tells whether a comment between stars is open. -/
  go (inside : Bool) : List Char → List Char
    | [] => []
    | '*' :: '/' :: rest => if inside then go false rest else '*' :: '/' :: rest
    | '/' :: '*' :: rest => go true rest
    | c :: rest => if inside || isSpace c then go inside rest else c :: rest

/-- A name, and what follows it. A name does not begin with a digit, nor with one hyphen alone. -/
def readName? (cs : List Char) : Option (String × List Char) :=
  let name := cs.takeWhile isNameChar
  let body := name.dropWhile (· == '-')
  let lead := name.length - body.length
  if (lead ≥ 2 || body.head?.any isNameStart) then
    some (String.ofList name, cs.dropWhile isNameChar)
  else none

/-- A variable's name in the form in which names are compared. -/
def plainName (name : String) : String :=
  String.ofList (name.toList.map fun c => if c == '_' then '-' else c)

/-- A number with its unit, and what follows it. -/
def readNumber? (cs : List Char) : Option (Amount × List Char) :=
  let (negative, body) : Bool × List Char :=
    match cs with
    | '-' :: rest => (true, rest)
    | '+' :: rest => (false, rest)
    | cs => (false, cs)
  let whole := body.takeWhile Char.isDigit
  let rest := body.dropWhile Char.isDigit
  let (decimals, rest) : List Char × List Char :=
    match rest with
    | '.' :: more =>
      if more.head?.any Char.isDigit then (more.takeWhile Char.isDigit, more.dropWhile Char.isDigit)
      else ([], rest)
    | _ => ([], rest)
  if whole.isEmpty && decimals.isEmpty then none
  else
    let digits : Nat := (whole ++ decimals).foldl (fun n c => n * 10 + (c.toNat - 0x30)) 0
    let number : Amount :=
      { num := if negative then -(digits : Int) else digits, den := Number.tenTo decimals.length }
    match rest with
    | '%' :: rest => some ({ number with unit := "%" }, rest)
    | _ =>
      match readName? rest with
      | some (unit, rest) =>
        -- a hyphen could as well subtract, and digits could be those of an exponent
        if unit.toList.any fun c => c = '-' || c.isDigit then none else some ({ number with unit }, rest)
      | none => some (number, rest)

/-- The text of a string up to its closing quote, and what follows. A backslash keeps the next
character from closing. -/
def readQuoted? (quote : Char) : List Char → Option (List Char × List Char)
  | [] => none
  | '\\' :: c :: rest => (readQuoted? quote rest).map fun (text, rest) => (c :: text, rest)
  | c :: rest =>
    if c = quote then some ([], rest)
    else if c = '\n' then none
    else (readQuoted? quote rest).map fun (text, rest) => (c :: text, rest)

/-- An address up to its closing parenthesis. -/
def readAddress? (cs : List Char) : Option (String × List Char) :=
  let body := cs.dropWhile isSpace
  let address := body.takeWhile fun c => c != ')' && c != '"' && c.toNat != 0x27 && c != '$'
  match body.drop address.length with
  | ')' :: rest => some ("url(" ++ String.ofList address ++ ")", rest)
  | _ => none

/-- The functions of Sass that are no functions of CSS. -/
def ownFunctions : List String :=
  ["red", "green", "blue", "hue", "saturation", "lightness", "whiteness", "blackness", "mix",
   "adjust-hue", "lighten", "darken", "desaturate", "complement", "opacify", "fade-in",
   "transparentize", "fade-out", "adjust-color", "scale-color", "change-color", "ie-hex-str",
   "hsl", "hsla", "hwb", "lab", "lch", "oklab", "oklch", "color",
   "percentage", "round", "ceil", "floor", "abs", "min", "max", "clamp", "calc", "random", "unit",
   "unitless", "comparable",
   "unquote", "quote", "str-length", "str-insert", "str-index", "str-slice", "to-upper-case",
   "to-lower-case", "unique-id",
   "length", "nth", "set-nth", "join", "append", "zip", "index", "list-separator", "is-bracketed",
   "map-get", "map-merge", "map-remove", "map-keys", "map-values", "map-has-key", "keywords",
   "selector-nest", "selector-append", "selector-extend", "selector-replace", "selector-unify",
   "selector-parse", "is-superselector", "simple-selectors",
   "feature-exists", "variable-exists", "global-variable-exists", "function-exists",
   "mixin-exists", "content-exists", "inspect", "type-of", "call", "get-function", "if", "not"]

/-- The functions of Sass whose names CSS has for filters, where they take one number. -/
def filterFunctions : List String :=
  ["saturate", "grayscale", "invert", "opacity", "alpha"]

/-- Whether an expression is a written number. -/
def Expr.isNumber : Expr → Bool
  | .number _ => true
  | _ => false

/-- Whether a call stands for itself. Colors do if their parts are numbers with commas between
them. -/
def isKeptCall (name : String) (args : List Expr) : Bool :=
  let name := plainName name
  if filterFunctions.contains name then args.length = 1 && args.all Expr.isNumber
  else if name = "rgb" then args.length = 3 && args.all Expr.isNumber
  else if name = "rgba" then args.length = 4 && args.all Expr.isNumber
  else !(ownFunctions.contains name)

/-- The words that operators are written with. -/
def operatorWords : List String := ["and", "or", "not"]

/-- Whether an expression is a written value, so that a slash beside it does not divide. -/
def Expr.isLiteral : Expr → Bool
  | .word _ | .number _ | .quoted _ | .call _ _ | .list .slash _ => true
  | _ => false

mutual

/-- An expression in which slashes divide. -/
def Expr.divided : Expr → Expr
  | .list .slash (first :: rest) => rest.foldl (Expr.binary .divide) first
  | .list separator items => .list separator (allDivided items)
  | expr => expr

/-- Expressions in which slashes divide. -/
def allDivided : List Expr → List Expr
  | [] => []
  | expr :: rest => expr.divided :: allDivided rest

end

/-- Two expressions with a slash between them. -/
def Expr.slashed (left right : Expr) : Expr :=
  if left.isLiteral && right.isLiteral then
    match left with
    | .list .slash items => .list .slash (items ++ [right])
    | _ => .list .slash [left, right]
  else .binary .divide left right

/-- Joins items by a separator; one item stays alone. -/
def joined (separator : Separator) (items : List Expr) : Expr :=
  match items with
  | [item] => item
  | _ => .list separator items

mutual

/-- One value without blanks around it. `fuel` bounds the number of steps. -/
def readTerm? : Nat → List Char → Option (Expr × List Char)
  | 0, _ => none
  | fuel + 1, cs =>
    match cs with
    | [] => none
    | '$' :: rest => (readName? rest).map fun (name, rest) => (.variable none (plainName name), rest)
    | '#' :: rest =>
      let digits := rest.takeWhile isNameChar
      if digits.isEmpty then none
      else some (.word ("#" ++ String.ofList digits), rest.drop digits.length)
    | '!' :: rest =>
      (readName? (rest.dropWhile isSpace)).bind fun (name, rest) =>
        if name = "important" then some (.word "!important", rest) else none
    | '(' :: rest => do
      let (inner, rest) ← readCommas? fuel rest
      match skipBlanks rest with
      | ')' :: rest => some (.group inner.divided, rest)
      | _ => none
    | c :: rest =>
      if c = '"' || c.toNat = 0x27 then
        (readQuoted? c rest).bind fun (text, rest) =>
          if Text.contains ['#', '\x7b'] text then none
          else some (.quoted (String.ofList text), rest)
      else
        match readNumber? cs with
        | some (number, rest) => some (.number number, rest)
        | none => do
          let (name, rest) ← readName? cs
          match rest with
          | '.' :: '$' :: rest =>
            (readName? rest).map fun (member, rest) => (.variable (some name) (plainName member), rest)
          | '(' :: rest =>
            match (if name = "url" then readAddress? rest else none) with
            | some (address, rest) => some (.word address, rest)
            | none => do
              let (args, rest) ← readArgs? fuel rest
              if isKeptCall name args then some (.call name args, rest) else none
          | rest => if operatorWords.contains name then none else some (.word name, rest)

/-- The arguments of a call, up to its closing parenthesis. -/
def readArgs? : Nat → List Char → Option (List Expr × List Char)
  | 0, _ => none
  | fuel + 1, cs =>
    match skipBlanks cs with
    | ')' :: rest => some ([], rest)
    | cs => do
      let (items, rest) ← readItems? fuel [] cs
      match skipBlanks rest with
      | ')' :: rest => some (items, rest)
      | _ => none

/-- Values with commas between them. -/
def readItems? : Nat → List Expr → List Char → Option (List Expr × List Char)
  | 0, _, _ => none
  | fuel + 1, items, cs => do
    let (item, rest) ← readSpaces? fuel [] (skipBlanks cs)
    match skipBlanks rest with
    | ',' :: rest => readItems? fuel (item :: items) rest
    | rest => some ((item :: items).reverse, rest)

/-- A value that may have commas in it. -/
def readCommas? : Nat → List Char → Option (Expr × List Char)
  | 0, _ => none
  | fuel + 1, cs => do
    let (items, rest) ← readItems? fuel [] cs
    some (joined .comma items, rest)

/-- A value that may have blanks in it, but no commas. -/
def readSpaces? : Nat → List Expr → List Char → Option (Expr × List Char)
  | 0, _, _ => none
  | fuel + 1, items, cs => do
    let (item, rest) ← readSum? fuel none cs
    match skipBlanks rest with
    | [] => some (joined .space (item :: items).reverse, [])
    | c :: more =>
      if c = ',' || c = ')' then some (joined .space (item :: items).reverse, c :: more)
      else if rest.head?.any isSpace then readSpaces? fuel (item :: items) (c :: more)
      else none

/-- A sum, whose beginning may be known. A sign with a blank on each side adds or subtracts; any
other one belongs to what follows it. -/
def readSum? : Nat → Option Expr → List Char → Option (Expr × List Char)
  | 0, _, _ => none
  | fuel + 1, known, cs => do
    let (left, rest) ← match known with
      | some left => some (left, cs)
      | none => readProduct? fuel none cs
    let operation : Option Operation :=
      match skipBlanks rest with
      | '+' :: c :: _ => if isSpace c then some .add else none
      | '-' :: c :: _ => if isSpace c then some .subtract else none
      | _ => none
    match operation, rest.head?.any isSpace with
    | some operation, true =>
      let (right, rest) ← readProduct? fuel none (skipBlanks ((skipBlanks rest).drop 1))
      readSum? fuel (some (.binary operation left.divided right.divided)) rest
    | _, _ => some (left, rest)

/-- A product, whose beginning may be known. A percent sign with a blank on each side gives the
remainder; any other one is a unit. -/
def readProduct? : Nat → Option Expr → List Char → Option (Expr × List Char)
  | 0, _, _ => none
  | fuel + 1, known, cs => do
    let (left, rest) ← match known with
      | some left => some (left, cs)
      | none => readTerm? fuel cs
    match skipBlanks rest with
    | '/' :: after =>
      let (right, rest) ← readTerm? fuel (skipBlanks after)
      readProduct? fuel (some (left.slashed right)) rest
    | '*' :: after =>
      let (right, rest) ← readTerm? fuel (skipBlanks after)
      readProduct? fuel (some (.binary .multiply left.divided right)) rest
    | '%' :: c :: after =>
      if rest.head?.any isSpace && isSpace c then
        let (right, rest) ← readTerm? fuel (skipBlanks after)
        readProduct? fuel (some (.binary .remainder left.divided right)) rest
      else none
    | _ => some (left, rest)

end

/-- The expression that a text is. -/
def Expr.ofText? (cs : List Char) : Option Expr := do
  let (expr, rest) ← readCommas? (8 * cs.length + 8) (skipBlanks cs)
  if (skipBlanks rest).isEmpty then some expr else none

end StyleGraph.Sass
