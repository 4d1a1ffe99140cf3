import StyleGraph.Css.Token
import StyleGraph.Text.Quoted

/-!
# Reading tokens

From characters to grouped tokens. Every step takes at least one character, so the length of the
text bounds the number of steps. Line ends are one line feed each, and a backslash before
hexadecimal digits stands for the character with that number.
-/

set_option autoImplicit false

namespace StyleGraph.Css.Tokenizer

/-- Line ends become line feeds. -/
def normalize : List Char → List Char
  | [] => []
  | '\r' :: '\n' :: rest => '\n' :: normalize rest
  | '\r' :: rest => '\n' :: normalize rest
  | '\x0c' :: rest => '\n' :: normalize rest
  | c :: rest => c :: normalize rest

/-- Blanks between tokens. -/
def isSpace (c : Char) : Bool := c == ' ' || c == '\t' || c == '\n'

/-- A character that may begin a name. -/
def isNameStart (c : Char) : Bool := c.isAlpha || c == '_' || c.toNat ≥ 128 || c.toNat == 0

/-- A character that may continue a name. -/
def isNameChar (c : Char) : Bool := isNameStart c || c.isDigit || c == '-'

/-- Whether a backslash and what follows it is an escape. -/
def isEscape : List Char → Bool
  | '\\' :: c :: _ => c != '\n'
  | _ => false

/-- Whether a name begins here. -/
def startsName : List Char → Bool
  | '-' :: '-' :: _ => true
  | '-' :: rest =>
    match rest with
    | c :: _ => isNameStart c || isEscape rest
    | [] => false
  | cs =>
    match cs with
    | c :: _ => isNameStart c || isEscape cs
    | [] => false

/-- Whether a number begins here. -/
def startsNumber : List Char → Bool
  | '+' :: c :: rest => c.isDigit || (c == '.' && rest.head?.any Char.isDigit)
  | '-' :: c :: rest => c.isDigit || (c == '.' && rest.head?.any Char.isDigit)
  | '.' :: c :: _ => c.isDigit
  | c :: _ => c.isDigit
  | [] => false

/-- The character that an escape stands for, after its backslash, and the rest. -/
def readEscape (cs : List Char) : Char × List Char :=
  let isHex (c : Char) : Bool := (Text.hexValue? c).isSome
  let digits := (cs.take 6).takeWhile isHex
  if digits.isEmpty then
    match cs with
    | c :: rest => (if c.toNat == 0 then '\ufffd' else c, rest)
    | [] => ('\ufffd', [])
  else
    let n := digits.foldl (fun n c => n * 16 + (Text.hexValue? c).getD 0) 0
    let rest := cs.drop digits.length
    let rest := match rest with
      | c :: more => if isSpace c then more else rest
      | [] => []
    let valid := n != 0 && (n < 0xd800 || (0xe000 ≤ n && n < 0x110000))
    (if valid then Char.ofNat n else '\ufffd', rest)

/-- Reads the rest of a name. -/
def readName : Nat → List Char → List Char → List Char × List Char
  | 0, acc, cs => (acc.reverse, cs)
  | fuel + 1, acc, cs =>
    match cs with
    | '\\' :: rest =>
      if isEscape cs then
        let (c, rest) := readEscape rest
        readName fuel (c :: acc) rest
      else (acc.reverse, cs)
    | c :: rest =>
      if isNameChar c then readName fuel ((if c.toNat == 0 then '\ufffd' else c) :: acc) rest
      else (acc.reverse, cs)
    | [] => (acc.reverse, [])

/-- Reads a name as a string. -/
def readNameText (cs : List Char) : String × List Char :=
  let (name, rest) := readName cs.length [] cs
  (String.ofList name, rest)

/-- Reads a string after its opening quote; a line end inside it is a fault. -/
def readString (quote : Char) : Nat → List Char → List Char → Token × List Char
  | 0, acc, cs => (.str (String.ofList acc.reverse), cs)
  | fuel + 1, acc, cs =>
    match cs with
    | [] => (.str (String.ofList acc.reverse), [])
    | '\\' :: [] => (.str (String.ofList acc.reverse), [])
    | '\\' :: '\n' :: rest => readString quote fuel acc rest
    | '\\' :: rest =>
      let (c, rest) := readEscape rest
      readString quote fuel (c :: acc) rest
    | c :: rest =>
      if c == quote then (.str (String.ofList acc.reverse), rest)
      else if c == '\n' then (.badString, cs)
      else readString quote fuel ((if c.toNat == 0 then '\ufffd' else c) :: acc) rest

/-- Passes over a faulty address. -/
def skipBadUrl : Nat → List Char → List Char
  | 0, cs => cs
  | _, [] => []
  | _, ')' :: rest => rest
  | fuel + 1, '\\' :: _ :: rest => skipBadUrl fuel rest
  | fuel + 1, _ :: rest => skipBadUrl fuel rest

/-- Reads an address without quotes. -/
def readUrl : Nat → List Char → List Char → Token × List Char
  | 0, acc, cs => (.url (String.ofList acc.reverse), cs)
  | fuel + 1, acc, cs =>
    match cs with
    | [] => (.url (String.ofList acc.reverse), [])
    | ')' :: rest => (.url (String.ofList acc.reverse), rest)
    | '\\' :: rest =>
      if isEscape cs then
        let (c, rest) := readEscape rest
        readUrl fuel (c :: acc) rest
      else (.badUrl, skipBadUrl cs.length cs)
    | c :: rest =>
      if isSpace c then
        match cs.dropWhile isSpace with
        | [] => (.url (String.ofList acc.reverse), [])
        | ')' :: rest => (.url (String.ofList acc.reverse), rest)
        | rest => (.badUrl, skipBadUrl rest.length rest)
      else if c == '"' || c.toNat == 0x27 || c == '(' || (c.toNat < 0x20 && c.toNat != 0) ||
          c.toNat == 0x7f then
        (.badUrl, skipBadUrl cs.length cs)
      else readUrl fuel ((if c.toNat == 0 then '\ufffd' else c) :: acc) rest

/-- The number that decimal digits stand for. -/
def natOf (digits : List Char) : Nat := digits.foldl (fun n c => n * 10 + (c.toNat - 48)) 0

/-- Reads a number, percentage or dimension. -/
def readNumber (cs : List Char) : Token × List Char :=
  let (negative, signed, cs) := match cs with
    | '-' :: rest => (true, true, rest)
    | '+' :: rest => (false, true, rest)
    | cs => (false, false, cs)
  let whole := cs.takeWhile Char.isDigit
  let rest := cs.dropWhile Char.isDigit
  let (fraction, rest) := match rest with
    | '.' :: c :: more =>
      if c.isDigit then ((c :: more).takeWhile Char.isDigit, (c :: more).dropWhile Char.isDigit)
      else ([], rest)
    | rest => ([], rest)
  let exponent : Option (Int × List Char) := match rest with
    | e :: more =>
      if e == 'e' || e == 'E' then
        let (sign, more) : Int × List Char := match more with
          | '-' :: more => (-1, more)
          | '+' :: more => (1, more)
          | more => (1, more)
        let digits := more.takeWhile Char.isDigit
        if digits.isEmpty then none
        else some (sign * natOf digits, more.dropWhile Char.isDigit)
      else none
    | [] => none
  let integer := fraction.isEmpty && exponent.isNone
  let rest := (exponent.map Prod.snd).getD rest
  let power := ((exponent.map Prod.fst).getD 0) - fraction.length
  let value := Decimal.make negative (natOf (whole ++ fraction)) power
  match rest with
  | '%' :: more => (.percentage value signed, more)
  | rest =>
    if startsName rest then
      let (unit, rest) := readNameText rest
      (.dimension value unit signed integer, rest)
    else (.number value signed integer, rest)

/-- Reads a comment after its opening. -/
def readComment : List Char → List Char → List Char × List Char
  | acc, [] => (acc.reverse, [])
  | acc, '*' :: '/' :: rest => (acc.reverse, rest)
  | acc, c :: rest => readComment (c :: acc) rest

/-- What one reading step finds. -/
inductive Found
  | token (token : Token)
  | openFunction (name : String)
  | openBlock (bracket : Bracket)
  | close (bracket : Bracket)
  deriving Repr

/-- Reads a name, a function's opening, or an address. -/
def readNameLike (cs : List Char) : Found × List Char :=
  let (name, rest) := readNameText cs
  match rest with
  | '(' :: rest =>
    if name.toList.map Char.toLower == ['u', 'r', 'l'] then
      match rest.dropWhile isSpace with
      | c :: more =>
        if c == '"' || c.toNat == 0x27 then (.openFunction name, rest)
        else
          let (token, rest) := readUrl (more.length + 2) [] (c :: more)
          (.token token, rest)
      | [] => (.token (.url ""), [])
    else (.openFunction name, rest)
  | rest => (.token (.ident name), rest)

/-- Reads what stands at the beginning of a text whose first character is `c`. -/
def step (c : Char) (rest : List Char) : Found × List Char :=
  let cs := c :: rest
  if isSpace c then
    (.token (.blank (String.ofList (c :: rest.takeWhile isSpace))), rest.dropWhile isSpace)
  else if c == '"' || c.toNat == 0x27 then
    let (token, rest) := readString c rest.length.succ [] rest
    (.token token, rest)
  else if startsNumber cs then
    let (token, rest) := readNumber cs
    (.token token, rest)
  else
    match c, rest with
    | '#', d :: _ =>
      if isNameChar d || isEscape rest then
        let (name, after) := readNameText rest
        (.token (.hash name (startsName rest)), after)
      else (.token (.delim c), rest)
    | '/', '*' :: rest =>
      let (text, rest) := readComment [] rest
      (.token (.comment (String.ofList text)), rest)
    | '-', '-' :: '>' :: rest => (.token .commentClose, rest)
    | '<', '!' :: '-' :: '-' :: rest => (.token .commentOpen, rest)
    | '@', rest =>
      if startsName rest then
        let (name, rest) := readNameText rest
        (.token (.atKeyword name), rest)
      else (.token (.delim '@'), rest)
    | '(', rest => (.openBlock .paren, rest)
    | '[', rest => (.openBlock .square, rest)
    | '\x7b', rest => (.openBlock .curly, rest)
    | ')', rest => (.close .paren, rest)
    | ']', rest => (.close .square, rest)
    | '\x7d', rest => (.close .curly, rest)
    | ':', rest => (.token .colon, rest)
    | ';', rest => (.token .semicolon, rest)
    | ',', rest => (.token .comma, rest)
    | '~', '=' :: rest => (.token (.matcher '~'), rest)
    | '|', '=' :: rest => (.token (.matcher '|'), rest)
    | '^', '=' :: rest => (.token (.matcher '^'), rest)
    | '$', '=' :: rest => (.token (.matcher '$'), rest)
    | '*', '=' :: rest => (.token (.matcher '*'), rest)
    | c, rest => if startsName cs then readNameLike cs else (.token (.delim c), rest)

/-- What is open around the place of reading: a function or a block, and the pieces read before
it, the last first. -/
structure Frame where
  function : Option String
  bracket : Bracket
  before : List Piece

/-- The piece that a frame becomes when it closes over its content. -/
def Frame.close (frame : Frame) (content : List Piece) : Piece :=
  match frame.function with
  | some name => .function name content
  | none => .block frame.bracket content

/-- Closes all that is open. -/
def closeAll : List Frame → List Piece → List Piece
  | [], acc => acc.reverse
  | frame :: frames, acc => closeAll frames (frame.close acc.reverse :: frame.before)

/-- Reads grouped tokens; `acc` holds the pieces at this depth, the last first. -/
def run : Nat → List Frame → List Piece → List Char → List Piece
  | 0, frames, acc, _ => closeAll frames acc
  | _, frames, acc, [] => closeAll frames acc
  | fuel + 1, frames, acc, c :: rest =>
    match step c rest with
    | (.token token, rest) => run fuel frames (.token token :: acc) rest
    | (.openFunction name, rest) => run fuel (⟨some name, .paren, acc⟩ :: frames) [] rest
    | (.openBlock bracket, rest) => run fuel (⟨none, bracket, acc⟩ :: frames) [] rest
    | (.close bracket, rest) =>
      match frames with
      | frame :: outer =>
        if frame.bracket = bracket then
          run fuel outer (frame.close acc.reverse :: frame.before) rest
        else run fuel frames (.token (.stray bracket) :: acc) rest
      | [] => run fuel [] (.token (.stray bracket) :: acc) rest

end StyleGraph.Css.Tokenizer

namespace StyleGraph.Css

/-- Reads a style sheet's text as grouped tokens. -/
def Piece.ofText (text : String) : List Piece :=
  let cs := Tokenizer.normalize text.toList
  Tokenizer.run cs.length [] [] cs

end StyleGraph.Css
