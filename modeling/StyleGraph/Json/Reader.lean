import StyleGraph.Json.Basic
import StyleGraph.Number.Binary64

/-!
# Written JSON

JSON text is read strictly: no comments, no commas before a closing bracket, no bare control
characters in strings, no half of a surrogate pair, no number beyond the binary ones of 64 bits,
nothing after the value, and no more than 127 values inside each other. A separate function makes JSON of JSON with comments.
-/

set_option autoImplicit false

namespace StyleGraph.Json.Reader

/-- A refused text. -/
inductive Refusal
  | malformed
  deriving DecidableEq, Repr

/-- Refuses. -/
def refuse {α : Type} : Except Refusal α := .error .malformed

/-- JSON's own blanks. -/
def isSpace (c : Char) : Bool := c == ' ' || c == '\t' || c == '\n' || c == '\r'

/-- Passes over blanks. -/
def skip (cs : List Char) : List Char := cs.dropWhile isSpace

/-- Four hexadecimal digits. -/
def hex4? : List Char → Option (Nat × List Char)
  | a :: b :: c :: d :: rest => do
    let a ← Text.hexValue? a
    let b ← Text.hexValue? b
    let c ← Text.hexValue? c
    let d ← Text.hexValue? d
    some (((a * 16 + b) * 16 + c) * 16 + d, rest)
  | _ => none

/-- Reads a string after its opening quote. -/
def readString : Nat → List Char → List Char → Except Refusal (String × List Char)
  | 0, _, _ => refuse
  | _, _, [] => refuse
  | fuel + 1, acc, c :: rest =>
    if c == '"' then .ok (String.ofList acc.reverse, rest)
    else if c.toNat < 0x20 then refuse
    else if c != '\\' then readString fuel (c :: acc) rest
    else
      match rest with
      | '"' :: rest => readString fuel ('"' :: acc) rest
      | '\\' :: rest => readString fuel ('\\' :: acc) rest
      | '/' :: rest => readString fuel ('/' :: acc) rest
      | 'b' :: rest => readString fuel ('\x08' :: acc) rest
      | 'f' :: rest => readString fuel ('\x0c' :: acc) rest
      | 'n' :: rest => readString fuel ('\n' :: acc) rest
      | 'r' :: rest => readString fuel ('\r' :: acc) rest
      | 't' :: rest => readString fuel ('\t' :: acc) rest
      | 'u' :: rest =>
        match hex4? rest with
        | none => refuse
        | some (unit, rest) =>
          if 0xd800 ≤ unit && unit < 0xdc00 then
            match rest with
            | '\\' :: 'u' :: rest =>
              match hex4? rest with
              | some (low, rest) =>
                if 0xdc00 ≤ low && low < 0xe000 then
                  let n := 0x10000 + (unit - 0xd800) * 0x400 + (low - 0xdc00)
                  readString fuel (Char.ofNat n :: acc) rest
                else refuse
              | none => refuse
            | _ => refuse
          else if 0xdc00 ≤ unit && unit < 0xe000 then refuse
          else readString fuel (Char.ofNat unit :: acc) rest
      | _ => refuse

/-- The number that decimal digits stand for. -/
def natOf (digits : List Char) : Nat := digits.foldl (fun n c => n * 10 + (c.toNat - 48)) 0

/-- The number that digits and a power of ten stand for. It is refused if it is too large for a
binary number of 64 bits; a small one need not be computed to see that it is not. -/
def numberOf (sign : Int) (digits : List Char) (power : Int) : Except Refusal (Int × Int) :=
  let mantissa := natOf digits
  if digits.length + power > 300 && Number.Binary64.ofDecimal mantissa power = .infinite then refuse
  else .ok (sign * mantissa, power)

/-- Reads a number without its sign. Minus zero has a sign, so it is not a whole number. -/
def readUnsigned (sign : Int) (cs : List Char) : Except Refusal (Json × List Char) :=
  let digits := cs.takeWhile Char.isDigit
  let rest := cs.dropWhile Char.isDigit
  if digits.isEmpty || (digits.length > 1 && digits.head? == some '0') then refuse
  else
    let fraction : Except Refusal (Option (List Char) × List Char) :=
      match rest with
      | '.' :: more =>
        let digits := more.takeWhile Char.isDigit
        if digits.isEmpty then refuse else .ok (some digits, more.dropWhile Char.isDigit)
      | rest => .ok (none, rest)
    match fraction with
    | .error refusal => .error refusal
    | .ok (fraction, rest) =>
      let exponent : Except Refusal (Option Int × List Char) :=
        match rest with
        | c :: more =>
          if c == 'e' || c == 'E' then
            let (sign, more) : Int × List Char := match more with
              | '+' :: more => (1, more)
              | '-' :: more => (-1, more)
              | more => (1, more)
            let digits := more.takeWhile Char.isDigit
            if digits.isEmpty then refuse
            else .ok (some (sign * natOf digits), more.dropWhile Char.isDigit)
          else .ok (none, rest)
        | [] => .ok (none, [])
      match exponent with
      | .error refusal => .error refusal
      | .ok (exponent, rest) =>
        let decimals := fraction.getD []
        match numberOf sign (digits ++ decimals) (exponent.getD 0 - decimals.length) with
        | .error refusal => .error refusal
        | .ok (mantissa, power) =>
          if fraction.isNone && exponent.isNone && !(sign < 0 && mantissa = 0) then
            .ok (.int mantissa, rest)
          else .ok (.decimal mantissa power, rest)

mutual

/-- Reads a value; `depth` is how many values may still open inside each other. -/
def readValue : Nat → Nat → List Char → Except Refusal (Json × List Char)
  | 0, _, _ => refuse
  | fuel + 1, depth, cs =>
    match skip cs with
    | 'n' :: 'u' :: 'l' :: 'l' :: rest => .ok (.null, rest)
    | 't' :: 'r' :: 'u' :: 'e' :: rest => .ok (.bool true, rest)
    | 'f' :: 'a' :: 'l' :: 's' :: 'e' :: rest => .ok (.bool false, rest)
    | '"' :: rest => do
      let (value, rest) ← readString (rest.length + 1) [] rest
      .ok (.str value, rest)
    | '[' :: rest =>
      match depth with
      | 0 => refuse
      | depth + 1 =>
        match skip rest with
        | ']' :: rest => .ok (.arr [], rest)
        | rest => do
          let (items, rest) ← readItems fuel depth [] rest
          .ok (.arr items, rest)
    | '\x7b' :: rest =>
      match depth with
      | 0 => refuse
      | depth + 1 =>
        match skip rest with
        | '\x7d' :: rest => .ok (.obj [], rest)
        | rest => do
          let (members, rest) ← readMembers fuel depth [] rest
          .ok (.obj members, rest)
    | '-' :: rest => readUnsigned (-1) rest
    | rest => readUnsigned 1 rest

/-- Reads the items of an array up to its closing bracket. -/
def readItems : Nat → Nat → List Json → List Char → Except Refusal (List Json × List Char)
  | 0, _, _, _ => refuse
  | fuel + 1, depth, acc, cs => do
    let (item, rest) ← readValue fuel depth cs
    match skip rest with
    | ',' :: rest => readItems fuel depth (item :: acc) rest
    | ']' :: rest => .ok ((item :: acc).reverse, rest)
    | _ => refuse

/-- Reads the members of an object up to its closing brace. -/
def readMembers : Nat → Nat → List (String × Json) → List Char → Except Refusal (List (String × Json) × List Char)
  | 0, _, _, _ => refuse
  | fuel + 1, depth, acc, cs => do
    match skip cs with
    | '"' :: rest => do
      let (key, rest) ← readString (rest.length + 1) [] rest
      match skip rest with
      | ':' :: rest => do
        let (value, rest) ← readValue fuel depth rest
        match skip rest with
        | ',' :: rest => readMembers fuel depth ((key, value) :: acc) rest
        | '\x7d' :: rest => .ok (((key, value) :: acc).reverse, rest)
        | _ => refuse
      | _ => refuse
    | _ => refuse

end

/-- Puts blanks in place of comments. Text inside strings stays. -/
def dropComments : Nat → List Char → List Char
  | 0, cs => cs
  | _, [] => []
  | fuel + 1, c :: rest =>
    match c, rest with
    | '"', rest =>
      let (literal, rest) := takeString rest.length rest
      '"' :: literal ++ dropComments fuel rest
    | '/', '/' :: rest => dropComments fuel (rest.dropWhile (· != '\n'))
    | '/', '*' :: rest => dropComments fuel (afterBlock rest)
    | '#', rest => dropComments fuel (rest.dropWhile (· != '\n'))
    | c, rest => c :: dropComments fuel rest
where
  /-- The rest of a string, its closing quote included, and what follows. -/
  takeString : Nat → List Char → List Char × List Char
    | 0, cs => (cs, [])
    | _, [] => ([], [])
    | _, '"' :: rest => (['"'], rest)
    | fuel + 1, '\\' :: c :: rest =>
      let (more, after) := takeString fuel rest
      ('\\' :: c :: more, after)
    | fuel + 1, c :: rest =>
      let (more, after) := takeString fuel rest
      (c :: more, after)
  /-- What follows the end of a block comment. -/
  afterBlock : List Char → List Char
    | [] => []
    | '*' :: '/' :: rest => rest
    | _ :: rest => afterBlock rest

/-- Drops a comma that only blanks separate from a closing bracket. -/
def dropTrailingCommas : Nat → List Char → List Char
  | 0, cs => cs
  | _, [] => []
  | fuel + 1, c :: rest =>
    match c with
    | '"' =>
      let (literal, rest) := dropComments.takeString rest.length rest
      '"' :: literal ++ dropTrailingCommas fuel rest
    | ',' =>
      match skip rest with
      | ']' :: _ | '\x7d' :: _ => dropTrailingCommas fuel rest
      | _ => ',' :: dropTrailingCommas fuel rest
    | c => c :: dropTrailingCommas fuel rest

end StyleGraph.Json.Reader

namespace StyleGraph.Json

/-- Reads JSON text. -/
def parse (text : String) : Except Reader.Refusal Json := do
  let cs := text.toList
  let (value, rest) ← Reader.readValue (2 * cs.length + 2) 127 cs
  if (Reader.skip rest).isEmpty then .ok value else .error .malformed

/-- Reads JSON text that may hold comments and commas before closing brackets. -/
def parseWithComments (text : String) : Except Reader.Refusal Json :=
  let cs := text.toList
  let plain := Reader.dropComments (cs.length + 1) cs
  parse (String.ofList (Reader.dropTrailingCommas (plain.length + 1) plain))

end StyleGraph.Json
