import StyleGraph.Number.Power
import StyleGraph.Pattern.Basic
import StyleGraph.Text.Quoted

/-!
# Written patterns

The written form of a pattern. The form has no look-around and no references to groups; a
repetition needs something to repeat, and its bounds must be in order. Every written pattern is
either refused as a whole or read as a whole.
-/

set_option autoImplicit false

namespace StyleGraph.Pattern.Reader

/-- The flags in effect at a place of a pattern. -/
structure Flags where
  /-- Letter case is disregarded. -/
  folded : Bool := false
  /-- `^` and `$` also match at line ends. -/
  multiline : Bool := false
  /-- `.` also matches a line end. -/
  dotAll : Bool := false
  /-- A carriage return is a line end too. -/
  crlf : Bool := false
  /-- Classes cover all of Unicode. -/
  unicode : Bool := true
  /-- Blanks and `#` comments in the pattern are passed over. -/
  verbose : Bool := false
  deriving DecidableEq, Repr, Inhabited

/-- A refused pattern. -/
inductive Refusal
  | malformed
  deriving DecidableEq, Repr

/-- Refuses. -/
def refuse {α : Type} : Except Refusal α := .error .malformed

/-- Passes over blanks and comments where the pattern is verbose. -/
def skipVerbose (flags : Flags) (cs : List Char) : List Char :=
  if flags.verbose then go cs.length cs else cs
where
  go : Nat → List Char → List Char
    | 0, cs => cs
    | _, [] => []
    | fuel + 1, c :: rest =>
      if Text.isBlank c then go fuel rest
      else if c = '#' then go fuel ((rest.dropWhile (· != '\n')).drop 1)
      else c :: rest

/-- Punctuation with a meaning of its own. -/
def isMeta (c : Char) : Bool :=
  "\\.+*?()|[]\x7b\x7d^$#&-~".toList.contains c

/-- Punctuation that a backslash may precede. -/
def isEscapable (c : Char) : Bool :=
  isMeta c || (c.toNat < 128 && !c.isAlphanum && c != '<' && c != '>')

/-- ASCII letters and digits as sets. -/
def asciiLetters : CharSet := .union (.range 'a' 'z') (.range 'A' 'Z')

/-- ASCII digits. -/
def asciiDigits : CharSet := .range '0' '9'

/-- ASCII word characters. -/
def asciiWord : CharSet := .unions [asciiLetters, asciiDigits, .range '_' '_']

/-- ASCII blanks. -/
def asciiBlank : CharSet := .unions [.range '\t' '\r', .range ' ' ' ']

/-- The set named by `\d`, `\s` or `\w`, and the negated ones. -/
def perlSet? (flags : Flags) (c : Char) : Option CharSet :=
  match c with
  | 'd' => some (if flags.unicode then .digit else asciiDigits)
  | 's' => some (if flags.unicode then .blank else asciiBlank)
  | 'w' => some (if flags.unicode then .word else asciiWord)
  | 'D' => if flags.unicode then some (.compl .digit) else none
  | 'S' => if flags.unicode then some (.compl .blank) else none
  | 'W' => if flags.unicode then some (.compl .word) else none
  | _ => none

/-- The set of a class in `[:name:]` form. -/
def posixSet? (name : String) : Option CharSet :=
  match name with
  | "alnum" => some (.union asciiLetters asciiDigits)
  | "alpha" => some asciiLetters
  | "ascii" => some (.range '\x00' '\x7f')
  | "blank" => some (.union (.range '\t' '\t') (.range ' ' ' '))
  | "cntrl" => some (.union (.range '\x00' '\x1f') (.range '\x7f' '\x7f'))
  | "digit" => some asciiDigits
  | "graph" => some (.range '!' '~')
  | "lower" => some (.range 'a' 'z')
  | "print" => some (.range ' ' '~')
  | "punct" =>
    some (.unions [.range '!' '/', .range ':' '@', .range '[' '\x60', .range '\x7b' '~'])
  | "space" => some asciiBlank
  | "upper" => some (.range 'A' 'Z')
  | "word" => some asciiWord
  | "xdigit" => some (.unions [asciiDigits, .range 'a' 'f', .range 'A' 'F'])
  | _ => none

/-- A set from ranges of code points. -/
def ranges (pairs : List (Nat × Nat)) : CharSet :=
  .unions (pairs.map fun (low, high) => .range (Char.ofNat low) (Char.ofNat high))

/-- The scripts that can be named, in loose spelling. -/
def scriptSet? (name : String) : Option CharSet :=
  match name with
  | "han" | "hani" =>
    some (ranges [(0x2e80, 0x2e99), (0x2e9b, 0x2ef3), (0x2f00, 0x2fd5), (0x3005, 0x3005),
      (0x3007, 0x3007), (0x3021, 0x3029), (0x3038, 0x303b), (0x3400, 0x4dbf), (0x4e00, 0x9fff),
      (0xf900, 0xfa6d), (0xfa70, 0xfad9), (0x16fe2, 0x16fe3), (0x16ff0, 0x16ff1),
      (0x20000, 0x2a6df), (0x2a700, 0x2ebe0), (0x2ebf0, 0x2ee5d), (0x2f800, 0x2fa1d),
      (0x30000, 0x323af)])
  | "hiragana" | "hira" =>
    some (ranges [(0x3041, 0x3096), (0x309d, 0x309f), (0x1b001, 0x1b11f), (0x1b132, 0x1b132),
      (0x1b150, 0x1b152), (0x1f200, 0x1f200)])
  | "katakana" | "kana" =>
    some (ranges [(0x30a1, 0x30fa), (0x30fd, 0x30ff), (0x31f0, 0x31ff), (0x32d0, 0x32fe),
      (0x3300, 0x3357), (0xff66, 0xff6f), (0xff71, 0xff9d), (0x1b000, 0x1b000),
      (0x1b164, 0x1b167)])
  | "latin" | "latn" =>
    some (ranges [(0x41, 0x5a), (0x61, 0x7a), (0xaa, 0xaa), (0xba, 0xba), (0xc0, 0xd6),
      (0xd8, 0xf6), (0xf8, 0x2b8), (0x2e0, 0x2e4), (0x1d00, 0x1d25), (0x1d2c, 0x1d5c),
      (0x1d62, 0x1d65), (0x1d6b, 0x1d77), (0x1d79, 0x1dbe), (0x1e00, 0x1eff), (0x2071, 0x2071),
      (0x207f, 0x207f), (0x2090, 0x209c), (0x212a, 0x212b), (0x2132, 0x2132), (0x214e, 0x214e),
      (0x2160, 0x2188), (0x2c60, 0x2c7f), (0xa722, 0xa787), (0xa78b, 0xa7ca), (0xa7f2, 0xa7ff),
      (0xab30, 0xab5a), (0xab5c, 0xab64), (0xfb00, 0xfb06), (0xff21, 0xff3a), (0xff41, 0xff5a)])
  | "greek" | "grek" =>
    some (ranges [(0x370, 0x373), (0x375, 0x377), (0x37a, 0x37d), (0x37f, 0x37f),
      (0x384, 0x384), (0x386, 0x386), (0x388, 0x38a), (0x38c, 0x38c), (0x38e, 0x3a1),
      (0x3a3, 0x3e1), (0x3f0, 0x3ff), (0x1d26, 0x1d2a), (0x1d5d, 0x1d61), (0x1d66, 0x1d6a),
      (0x1dbf, 0x1dbf), (0x1f00, 0x1ffe), (0x2126, 0x2126)])
  | "cyrillic" | "cyrl" =>
    some (ranges [(0x400, 0x484), (0x487, 0x52f), (0x1c80, 0x1c88), (0x1d2b, 0x1d2b),
      (0x1d78, 0x1d78), (0x2de0, 0x2dff), (0xa640, 0xa69f), (0xfe2e, 0xfe2f)])
  | "hebrew" | "hebr" =>
    some (ranges [(0x591, 0x5c7), (0x5d0, 0x5ea), (0x5ef, 0x5f4), (0xfb1d, 0xfb4f)])
  | "arabic" | "arab" =>
    some (ranges [(0x600, 0x604), (0x606, 0x60b), (0x60d, 0x61a), (0x61c, 0x61e),
      (0x620, 0x63f), (0x641, 0x64a), (0x656, 0x66f), (0x671, 0x6dc), (0x6de, 0x6ff),
      (0x750, 0x77f), (0x8a0, 0x8ff), (0xfb50, 0xfdff), (0xfe70, 0xfefc)])
  | "thai" => some (ranges [(0xe01, 0xe3a), (0xe40, 0xe5b)])
  | "hangul" | "hang" =>
    some (ranges [(0x1100, 0x11ff), (0x302e, 0x302f), (0x3131, 0x318e), (0x3200, 0x321e),
      (0x3260, 0x327e), (0xa960, 0xa97c), (0xac00, 0xd7a3), (0xd7b0, 0xd7fb),
      (0xffa0, 0xffdc)])
  | _ => none

/-- The general categories by their long names, in loose spelling. -/
def categoryName? (name : String) : Option (Char × Option Char) :=
  match name with
  | "letter" => some ('L', none) | "uppercaseletter" => some ('L', some 'u')
  | "lowercaseletter" => some ('L', some 'l') | "titlecaseletter" => some ('L', some 't')
  | "modifierletter" => some ('L', some 'm') | "otherletter" => some ('L', some 'o')
  | "mark" | "combiningmark" => some ('M', none) | "nonspacingmark" => some ('M', some 'n')
  | "spacingmark" => some ('M', some 'c') | "enclosingmark" => some ('M', some 'e')
  | "number" => some ('N', none) | "decimalnumber" | "digit" => some ('N', some 'd')
  | "letternumber" => some ('N', some 'l') | "othernumber" => some ('N', some 'o')
  | "punctuation" | "punct" => some ('P', none)
  | "connectorpunctuation" => some ('P', some 'c') | "dashpunctuation" => some ('P', some 'd')
  | "openpunctuation" => some ('P', some 's') | "closepunctuation" => some ('P', some 'e')
  | "initialpunctuation" => some ('P', some 'i') | "finalpunctuation" => some ('P', some 'f')
  | "otherpunctuation" => some ('P', some 'o') | "symbol" => some ('S', none)
  | "mathsymbol" => some ('S', some 'm') | "currencysymbol" => some ('S', some 'c')
  | "modifiersymbol" => some ('S', some 'k') | "othersymbol" => some ('S', some 'o')
  | "separator" => some ('Z', none) | "spaceseparator" => some ('Z', some 's')
  | "lineseparator" => some ('Z', some 'l') | "paragraphseparator" => some ('Z', some 'p')
  | "other" => some ('C', none) | "control" | "cntrl" => some ('C', some 'c')
  | "format" => some ('C', some 'f') | "unassigned" => some ('C', some 'n')
  | "privateuse" => some ('C', some 'o')
  | _ => none

/-- The general categories by their one- or two-letter names, in lower case. -/
def shortCategory? (name : String) : Option CharSet :=
  match name.toList with
  | [major] =>
    if "lmnpszc".toList.contains major then some (.category major.toUpper none) else none
  | [major, minor] =>
    if major == 'l' && minor == 'c' then
      some (.unions [.category 'L' (some 'u'), .category 'L' (some 'l'), .category 'L' (some 't')])
    else if ["lu", "ll", "lt", "lm", "lo", "mn", "mc", "me", "nd", "nl", "no", "pc", "pd", "ps",
        "pe", "pi", "pf", "po", "sm", "sc", "sk", "so", "zs", "zl", "zp", "cc", "cf", "cn",
        "co"].contains name then
      some (.category major.toUpper (some minor))
    else none
  | _ => none

/-- The set a property name stands for. Case, blanks, `-` and `_` in names do not matter. -/
def propertySet? (name : String) : Option CharSet :=
  let loose := String.ofList ((name.toList.map Char.toLower).filter
    fun c => c != '_' && c != '-' && !Text.isBlank c)
  let pick (key : String) : Option CharSet :=
    match key with
    | "any" => some .all
    | "ascii" => some (.range '\x00' '\x7f')
    | "assigned" => some (.compl (.category 'C' (some 'n')))
    | "alphabetic" | "alpha" => some .alphabetic
    | "whitespace" | "wspace" | "space" => some .blank
    | "uppercase" | "upper" => some (.category 'L' (some 'u'))
    | "lowercase" | "lower" => some (.category 'L' (some 'l'))
    | "casedletter" =>
      some (.unions [.category 'L' (some 'u'), .category 'L' (some 'l'),
        .category 'L' (some 't')])
    | _ =>
      match shortCategory? key with
      | some set => some set
      | none =>
        match categoryName? key with
        | some (major, minor) => some (.category major minor)
        | none => scriptSet? key
  let cut (mark : Char) : Option (String × String) :=
    match loose.toList.dropWhile (· != mark) with
    | _ :: value => some (String.ofList (loose.toList.takeWhile (· != mark)), String.ofList value)
    | [] => none
  match cut '=', cut ':' with
  | some (key, value), _ | none, some (key, value) =>
    let value := if value.endsWith "!" then value else value
    if key == "sc" || key == "script" || key == "scx" || key == "scriptextensions" then
      scriptSet? value
    else if key == "gc" || key == "generalcategory" then
      match shortCategory? value with
      | some set => some set
      | none => (categoryName? value).map fun (major, minor) => .category major minor
    else none
  | none, none => pick loose

/-- What a backslash introduces. -/
inductive Escape
  | literal (c : Char)
  | set (set : CharSet)
  | boundary (boundary : Boundary)

/-- A code point from digits, if it is one. -/
def scalar? (n : Nat) : Except Refusal Char :=
  if n < 0xd800 || (0xe000 ≤ n && n < 0x110000) then .ok (Char.ofNat n) else refuse

/-- The value of hexadecimal digits; none is refused. -/
def hexNumber (cs : List Char) : Except Refusal Nat :=
  if cs.isEmpty || cs.length > 8 then refuse
  else
    cs.foldlM (fun n c =>
      match Text.hexValue? c with
      | some digit => .ok (n * 16 + digit)
      | none => refuse) 0

/-- Reads a code point in hexadecimal, with a fixed number of digits or between braces. -/
def readHex (width : Nat) (cs : List Char) : Except Refusal (Char × List Char) :=
  match cs with
  | '\x7b' :: rest =>
    let digits := rest.takeWhile (· != '\x7d')
    match rest.dropWhile (· != '\x7d') with
    | _ :: after => do
      let c ← scalar? (← hexNumber digits)
      .ok (c, after)
    | [] => refuse
  | cs => do
    if cs.length < width then refuse
    let c ← scalar? (← hexNumber (cs.take width))
    .ok (c, cs.drop width)

/-- Reads the name of a property after `\p` or `\P`. -/
def readProperty (flags : Flags) (negated : Bool) (cs : List Char) : Except Refusal (CharSet × List Char) := do
  if !flags.unicode then refuse
  let (name, rest) ←
    (match cs with
    | '\x7b' :: rest =>
      match rest.dropWhile (· != '\x7d') with
      | _ :: after => .ok (rest.takeWhile (· != '\x7d'), after)
      | [] => refuse
    | c :: rest => .ok ([c], rest)
    | [] => refuse : Except Refusal (List Char × List Char))
  let (inverted, name) := match name with
    | '^' :: name => (true, name)
    | name => (false, name)
  let (unequal, name) :=
    match name.dropWhile (· != '!') with
    | '!' :: '=' :: value => (true, name.takeWhile (· != '!') ++ '=' :: value)
    | _ => (false, name)
  match propertySet? (String.ofList name) with
  | none => refuse
  | some set =>
    .ok (if (negated != inverted) != unequal then .compl set else set, rest)

/-- Reads what follows a backslash. -/
def readEscape (flags : Flags) (cs : List Char) : Except Refusal (Escape × List Char) :=
  match cs with
  | [] => refuse
  | c :: rest =>
    let ascii := !flags.unicode
    if c == 'p' || c == 'P' then do
      let (set, rest) ← readProperty flags (c == 'P') rest
      .ok (.set set, rest)
    else if "dswDSW".toList.contains c then
      match perlSet? flags c with
      | some set => .ok (.set set, rest)
      | none => refuse
    else if c == 'x' then (readHex 2 rest).map fun (c, rest) => (.literal c, rest)
    else if c == 'u' then (readHex 4 rest).map fun (c, rest) => (.literal c, rest)
    else if c == 'U' then (readHex 8 rest).map fun (c, rest) => (.literal c, rest)
    else if isEscapable c then .ok (.literal c, rest)
    else
      match c with
      | 'a' => .ok (.literal '\x07', rest)
      | 'f' => .ok (.literal '\x0c', rest)
      | 't' => .ok (.literal '\t', rest)
      | 'n' => .ok (.literal '\n', rest)
      | 'r' => .ok (.literal '\r', rest)
      | 'v' => .ok (.literal '\x0b', rest)
      | 'A' => .ok (.boundary .textStart, rest)
      | 'z' => .ok (.boundary .textEnd, rest)
      | 'B' => if ascii then refuse else .ok (.boundary (.notWord ascii), rest)
      | '<' => .ok (.boundary (.wordStart ascii), rest)
      | '>' => .ok (.boundary (.wordEnd ascii), rest)
      | 'b' =>
        match rest with
        | '\x7b' :: more =>
          let name := String.ofList (more.takeWhile (· != '\x7d'))
          let after := (more.dropWhile (· != '\x7d')).drop 1
          match name with
          | "start" => .ok (.boundary (.wordStart ascii), after)
          | "end" => .ok (.boundary (.wordEnd ascii), after)
          | "start-half" => .ok (.boundary (.wordStartHalf ascii), after)
          | "end-half" => .ok (.boundary (.wordEndHalf ascii), after)
          | _ =>
            if more.head?.any (fun c => c.isAlpha || c == '-') then refuse
            else .ok (.boundary (.word ascii), rest)
        | rest => .ok (.boundary (.word ascii), rest)
      | _ => refuse

/-- One end of a range in a bracketed set, or a whole set. -/
def readSetItem (flags : Flags) (cs : List Char) : Except Refusal ((Char ⊕ CharSet) × List Char) :=
  match cs with
  | [] => refuse
  | '\\' :: rest => do
    match ← readEscape flags rest with
    | (.literal c, rest) => .ok (.inl c, rest)
    | (.set set, rest) => .ok (.inr set, rest)
    | (.boundary _, _) => refuse
  | c :: rest => .ok (.inl c, rest)

/-- Reads `[:name:]`, if that is what follows. -/
def readPosix? (cs : List Char) : Option (CharSet × List Char) :=
  match cs with
  | '[' :: ':' :: rest =>
    let (negated, rest) := match rest with
      | '^' :: rest => (true, rest)
      | rest => (false, rest)
    let name := String.ofList (rest.takeWhile (· != ':'))
    match rest.dropWhile (· != ':') with
    | ':' :: ']' :: after =>
      (posixSet? name).map fun set => (if negated then .compl set else set, after)
    | _ => none
  | _ => none

/-- The pending operation of a bracketed set. -/
inductive SetOp
  | inter
  | diff
  | symmetricDiff

/-- Applies a pending operation to its operands. -/
def SetOp.apply : Option (CharSet × SetOp) → CharSet → CharSet
  | none, right => right
  | some (left, .inter), right => .inter left right
  | some (left, .diff), right => .diff left right
  | some (left, .symmetricDiff), right => .union (.diff left right) (.diff right left)

/-- Opens a bracketed set after its `[`: whether it is negated, the literals that may stand first,
and the rest. -/
def openSet (flags : Flags) (cs : List Char) : Bool × CharSet × List Char :=
  let cs := skipVerbose flags cs
  let (negated, cs) := match cs with
    | '^' :: rest => (true, skipVerbose flags rest)
    | cs => (false, cs)
  let hyphens := cs.takeWhile (· == '-')
  let rest := cs.dropWhile (· == '-')
  let start : CharSet := if hyphens.isEmpty then .empty else .range '-' '-'
  match hyphens, rest with
  | [], ']' :: rest => (negated, .range ']' ']', rest)
  | _, rest => (negated, start, rest)

/-- Reads a bracketed set up to and including its `]`. `pending` is the operand before the last
operator and `items` the union read since. -/
def readSet (flags : Flags) :
    Nat → Option (CharSet × SetOp) → CharSet → List Char → Except Refusal (CharSet × List Char)
  | 0, _, _, _ => refuse
  | fuel + 1, pending, items, cs =>
    match skipVerbose flags cs with
    | [] => refuse
    | ']' :: rest => .ok (SetOp.apply pending items, rest)
    | '&' :: '&' :: rest =>
      readSet flags fuel (some (SetOp.apply pending items, .inter)) .empty rest
    | '-' :: '-' :: rest =>
      readSet flags fuel (some (SetOp.apply pending items, .diff)) .empty rest
    | '~' :: '~' :: rest =>
      readSet flags fuel (some (SetOp.apply pending items, .symmetricDiff)) .empty rest
    | '[' :: rest =>
      match readPosix? ('[' :: rest) with
      | some (set, rest) => readSet flags fuel pending (.union items set) rest
      | none => do
        let (negated, start, rest) := openSet flags rest
        let (set, rest) ← readSet flags fuel none start rest
        if negated && !flags.unicode then refuse
        readSet flags fuel pending (.union items (if negated then .compl set else set)) rest
    | cs => do
      let (low, rest) ← readSetItem flags cs
      let rest := skipVerbose flags rest
      let single : Unit → Except Refusal (CharSet × List Char) := fun _ =>
        let set := match low with
          | .inl c => .range c c
          | .inr set => set
        readSet flags fuel pending (.union items set) rest
      match rest with
      | '-' :: ']' :: _ => single ()
      | '-' :: '-' :: _ => single ()
      | '-' :: after => do
        let (high, after) ← readSetItem flags (skipVerbose flags after)
        match low, high with
        | .inl low, .inl high =>
          if high.toNat < low.toNat then refuse
          else readSet flags fuel pending (.union items (.range low high)) after
        | _, _ => refuse
      | _ => single ()

/-- Reads the flags of `(?flags)` or `(?flags:`; the result tells which of the two closed them. -/
def readFlags : Flags → Bool → List Char → List Char → Except Refusal ((Flags × Char) × List Char)
  | _, _, _, [] => refuse
  | flags, negated, seen, c :: rest =>
    if c == ':' || c == ')' then
      if negated && seen.head? == some '-' then refuse
      else if c == ')' && seen.isEmpty then refuse
      else .ok ((flags, c), rest)
    else if seen.contains c then refuse
    else
      match c with
      | '-' => readFlags flags true (c :: seen) rest
      | 'i' => readFlags { flags with folded := !negated } negated (c :: seen) rest
      | 'm' => readFlags { flags with multiline := !negated } negated (c :: seen) rest
      | 's' => readFlags { flags with dotAll := !negated } negated (c :: seen) rest
      | 'U' => readFlags flags negated (c :: seen) rest
      | 'u' => readFlags { flags with unicode := !negated } negated (c :: seen) rest
      | 'R' => readFlags { flags with crlf := !negated } negated (c :: seen) rest
      | 'x' => readFlags { flags with verbose := !negated } negated (c :: seen) rest
      | _ => refuse

/-- Reads a decimal number with blanks around it. -/
def readDecimal (cs : List Char) : Except Refusal (Nat × List Char) :=
  let cs := cs.dropWhile Text.isBlank
  let digits := cs.takeWhile Char.isDigit
  let rest := (cs.dropWhile Char.isDigit).dropWhile Text.isBlank
  if digits.isEmpty then refuse
  else
    let n := digits.foldl (fun n c => n * 10 + (c.toNat - 48)) 0
    if n < Number.twoTo 32 then .ok (n, rest) else refuse

/-- Reads the bounds of a counted repetition after its opening brace. -/
def readBounds (flags : Flags) (cs : List Char) : Except Refusal ((Nat × Option Nat) × List Char) := do
  let (least, rest) ← readDecimal cs
  match rest with
  | ',' :: rest =>
    match skipVerbose flags rest with
    | '\x7d' :: rest => .ok ((least, none), rest)
    | rest => do
      let (most, rest) ← readDecimal rest
      match rest with
      | '\x7d' :: rest => if most < least then refuse else .ok ((least, some most), rest)
      | _ => refuse
  | '\x7d' :: rest => .ok ((least, some least), rest)
  | _ => refuse

/-- Whether characters form the name of a group. -/
def isGroupName (cs : List Char) : Bool :=
  match cs with
  | [] => false
  | c :: rest =>
    (c == '_' || Text.isLetter c) &&
      rest.all fun c =>
        c == '_' || c == '.' || c == '[' || c == ']' || Text.isLetter c || c.isDigit ||
          Text.isDecimalDigit c

/-- What has been read of an alternation: finished branches, and the items of the open branch with
the last item first. An item that cannot be repeated is `none`'s partner. -/
structure Branches where
  finished : Option Expr := none
  items : List (Expr × Bool) := []

/-- The open branch as one expression. -/
def Branches.sequence (branches : Branches) : Expr :=
  branches.items.foldl (fun rest item => if rest == .empty then item.1 else .seq item.1 rest)
    .empty

/-- All branches as one expression. -/
def Branches.expr (branches : Branches) : Expr :=
  match branches.finished with
  | none => branches.sequence
  | some left => .alt left branches.sequence

/-- Closes the open branch. -/
def Branches.next (branches : Branches) : Branches := { finished := some branches.expr }

/-- Adds an item to the open branch. -/
def Branches.push (branches : Branches) (item : Expr) (repeatable : Bool) : Branches :=
  { branches with items := (item, repeatable) :: branches.items }

/-- Repeats the last item of the open branch; refused when there is none. -/
def Branches.repeatLast (branches : Branches) (least : Nat) (most : Option Nat) :
    Except Refusal Branches :=
  match branches.items with
  | (item, true) :: items =>
    .ok { branches with items := (.repeated item least most, true) :: items }
  | _ => refuse

/-- Reads the sign after a group's `(`: the flags inside, whether it only sets flags, the group
names known afterwards, and the rest. -/
def openGroup (flags : Flags) (names : List String) (cs : List Char) :
    Except Refusal (Flags × Bool × List String × List Char) :=
  let named (cs : List Char) : Except Refusal (Flags × Bool × List String × List Char) :=
    let name := cs.takeWhile (· != '>')
    match cs.dropWhile (· != '>') with
    | _ :: rest =>
      let text := String.ofList name
      if isGroupName name && !names.contains text then .ok (flags, false, text :: names, rest)
      else refuse
    | [] => refuse
  match skipVerbose flags cs with
  | '?' :: 'P' :: '<' :: rest => named rest
  | '?' :: '<' :: '=' :: _ | '?' :: '<' :: '!' :: _ => refuse
  | '?' :: '=' :: _ | '?' :: '!' :: _ => refuse
  | '?' :: '<' :: rest => named rest
  | '?' :: rest => do
    let ((inner, close), rest) ← readFlags flags false [] rest
    .ok (inner, close == ')', names, rest)
  | rest => .ok (flags, false, names, rest)

/-- Reads branches up to the end of the text, or up to the `)` that closes a group. -/
def readBranches : Nat → Bool → Flags → List String → Branches → List Char →
    Except Refusal (Expr × List String × List Char)
  | 0, _, _, _, _, _ => refuse
  | fuel + 1, inGroup, flags, names, branches, cs =>
    let continueWith (item : Expr) (rest : List Char) :=
      readBranches fuel inGroup flags names (branches.push item true) rest
    match skipVerbose flags cs with
    | [] => if inGroup then refuse else .ok (branches.expr, names, [])
    | ')' :: rest => if inGroup then .ok (branches.expr, names, rest) else refuse
    | '|' :: rest => readBranches fuel inGroup flags names branches.next rest
    | '(' :: rest => do
      let (inner, flagsOnly, names, rest) ← openGroup flags names rest
      if flagsOnly then
        readBranches fuel inGroup inner names (branches.push .empty false) rest
      else
        let (body, names, rest) ← readBranches fuel true inner names {} rest
        readBranches fuel inGroup flags names (branches.push body true) rest
    | '*' :: rest => do
      let branches ← branches.repeatLast 0 none
      readBranches fuel inGroup flags names branches (lazyMark flags rest)
    | '+' :: rest => do
      let branches ← branches.repeatLast 1 none
      readBranches fuel inGroup flags names branches (lazyMark flags rest)
    | '?' :: rest => do
      let branches ← branches.repeatLast 0 (some 1)
      readBranches fuel inGroup flags names branches (lazyMark flags rest)
    | '\x7b' :: rest => do
      if branches.items.head?.all fun item => !item.2 then refuse
      let ((least, most), rest) ← readBounds flags rest
      let branches ← branches.repeatLast least most
      readBranches fuel inGroup flags names branches (lazyMark flags rest)
    | '.' :: rest =>
      if !flags.unicode then refuse
      else
        let set : CharSet :=
          if flags.dotAll then .all
          else if flags.crlf then .compl (.union (.range '\n' '\n') (.range '\r' '\r'))
          else .compl (.range '\n' '\n')
        continueWith (.one false set) rest
    | '^' :: rest =>
      continueWith (.boundary (if flags.multiline then .lineStart flags.crlf else .textStart)) rest
    | '$' :: rest =>
      continueWith (.boundary (if flags.multiline then .lineEnd flags.crlf else .textEnd)) rest
    | '[' :: rest => do
      let (negated, start, rest) := openSet flags rest
      let (set, rest) ← readSet flags rest.length.succ none start rest
      if negated && !flags.unicode then refuse
      continueWith (.one flags.folded (if negated then .compl set else set)) rest
    | '\\' :: rest => do
      match ← readEscape flags rest with
      | (.literal c, rest) => continueWith (.one flags.folded (.range c c)) rest
      | (.set set, rest) => continueWith (.one flags.folded set) rest
      | (.boundary boundary, rest) => continueWith (.boundary boundary) rest
    | c :: rest => continueWith (.one flags.folded (.range c c)) rest
where
  /-- Passes over the mark of a reluctant repetition, which changes no set of positions. -/
  lazyMark (flags : Flags) (cs : List Char) : List Char :=
    match skipVerbose flags cs with
    | '?' :: rest => rest
    | rest => rest



end StyleGraph.Pattern.Reader

namespace StyleGraph

/-- Reads a written pattern. -/
def Pattern.parse (source : String) : Except Pattern.Reader.Refusal Pattern := do
  let cs := source.toList
  let (expr, _, _) ← Pattern.Reader.readBranches (cs.length + 1) false {} [] {} cs
  .ok ⟨source, expr⟩

end StyleGraph
