import StyleGraph.Script.Literal
import StyleGraph.Text.Cut

/-!
# Lexemes of scripts

The smallest parts of a script, and readers that consume them. A reader is a function of the text
that is left; it fails where the text is not what it expects, and blanks and comments before a
lexeme are passed over when the lexeme is read. `>` is a lexeme by itself even in front of another
`>` or `=`, so that lists of types nest; operators are put together where they are expected.

What a reader takes also depends on the function around it, which is passed along unchanged.
-/

set_option autoImplicit false

namespace StyleGraph.Script

/-- One lexeme. -/
inductive Lexeme
  /-- An identifier or a keyword; a keyword counts as one only without escapes. -/
  | word (name : String) (escaped : Bool)
  /-- A private name, after its `#`. -/
  | hash (name : String)
  | text (value : String)
  | numeral (value : Literal.Numeral)
  /-- Punctuation. -/
  | mark (symbol : String)
  /-- The end of the script. -/
  | finish
  deriving DecidableEq, Repr, Inhabited

/-- What a place between lexemes is part of. -/
inductive Gap
  | blank
  /-- A comment up to the end of its line. -/
  | line
  /-- A comment up to its closing mark. -/
  | block

/-- Passes over blanks and comments. Gives the rest, and whether a line ended on the way; nothing
when a comment is not closed. -/
def skipGap? : Gap → Bool → List Char → Option (Bool × List Char)
  | .blank, ended, '/' :: '/' :: rest => skipGap? .line ended rest
  | .blank, ended, '/' :: '*' :: rest => skipGap? .block ended rest
  | .blank, ended, c :: rest =>
    if Literal.isLineEnd c then skipGap? .blank true rest
    else if Literal.isSpace c then skipGap? .blank ended rest
    else some (ended, c :: rest)
  | .line, ended, c :: rest =>
    if Literal.isLineEnd c then skipGap? .blank true rest else skipGap? .line ended rest
  | .block, ended, '*' :: '/' :: rest => skipGap? .blank ended rest
  | .block, ended, c :: rest => skipGap? .block (ended || Literal.isLineEnd c) rest
  | .block, _, [] => none
  | _, ended, [] => some (ended, [])

/-- Passes over blanks and comments before a lexeme. -/
def skipBlanks? (cs : List Char) : Option (Bool × List Char) := skipGap? .blank false cs

/-- The punctuation of more than one character, no entry being the beginning of a later one. -/
def longMarks : List String :=
  ["...", "=>", "===", "==", "!==", "!=", "??=", "??", "&&=", "&&", "&=", "||=", "||", "|=",
    "**=", "**", "*=", "++", "+=", "--", "-=", "/=", "%=", "^="]

/-- The punctuation of one character. -/
def shortMarks : List Char :=
  "\x7b\x7d()[];,~?:.<>=!+-*/%&|^@".toList ++ ['\x60']

/-- The lexeme at the beginning of a text without blanks before it. -/
def lexeme? (cs : List Char) : Option (Lexeme × List Char) :=
  match cs with
  | [] => some (.finish, [])
  | '#' :: rest => (Literal.word? rest).map fun (name, _, after) => (.hash name, after)
  | '?' :: '.' :: rest =>
    if rest.head?.any (Literal.isDigitOf 10) then some (.mark "?", '.' :: rest)
    else some (.mark "?.", rest)
  | c :: rest =>
    if c = '"' || c.toNat = 0x27 then
      (Literal.string? c rest).map fun (value, after) => (.text value, after)
    else if Literal.isDigitOf 10 c || (c = '.' && rest.head?.any (Literal.isDigitOf 10)) then
      (Literal.numeral? cs).map fun (value, after) => (.numeral value, after)
    else if Literal.isWordStart c || c = '\\' then
      (Literal.word? cs).map fun (name, escaped, after) => (.word name escaped, after)
    else
      match longMarks.find? fun symbol => Text.startsWith symbol.toList cs with
      | some symbol => some (.mark symbol, cs.drop symbol.length)
      | none => if shortMarks.contains c then some (.mark (String.singleton c), rest) else none

/-- The function around a place in a module, as far as the meaning of words depends on it. -/
structure Surroundings where
  /-- There is a function, which `return` can end. -/
  returns : Bool := false
  /-- `await` is an operator. At the top of a module it is one too. -/
  awaits : Bool := true
  /-- `yield` is an operator. -/
  yields : Bool := false
  deriving DecidableEq, Repr, Inhabited

/-- What is around the body of a function. -/
def Surroundings.ofFunction (isAsync isGenerator : Bool) : Surroundings :=
  { returns := true, awaits := isAsync, yields := isGenerator }

/-- A reader of scripts: it consumes the beginning of a text, or fails. -/
abbrev Read := ReaderT Surroundings (StateT (List Char) Option)

namespace Read

/-- Fails where the text is not a script. -/
def refuse {α : Type} : Read α := fun _ _ => none

/-- Fails unless a condition holds. -/
def ensure (condition : Bool) : Read Unit := if condition then pure () else refuse

/-- Runs a reader if it succeeds, else leaves the text as it is. -/
def attempt {α : Type} (reader : Read α) : Read (Option α) := fun around cs =>
  match reader around cs with
  | some (value, rest) => some (some value, rest)
  | none => some (none, cs)

/-- Whether a reader would succeed. -/
def ahead {α : Type} (reader : Read α) : Read Bool := fun around cs =>
  some ((reader around cs).isSome, cs)

/-- Runs a reader inside another function. -/
def within {α : Type} (around : Surroundings) (reader : Read α) : Read α := fun _ cs =>
  reader around cs

/-- The next lexeme, left in place. -/
def peek : Read Lexeme := fun _ cs => do
  let (_, rest) ← skipBlanks? cs
  let (lexeme, _) ← lexeme? rest
  some (lexeme, cs)

/-- Takes the next lexeme. -/
def next : Read Lexeme := fun _ cs => do
  let (_, rest) ← skipBlanks? cs
  lexeme? rest

/-- Whether the next lexeme is on a later line. -/
def onNewLine : Read Bool := fun _ cs => do
  let (ended, _) ← skipBlanks? cs
  some (ended, cs)

/-- The text that is left, without the blanks before it. Nothing is taken. -/
def remaining : Read (List Char) := fun _ cs => do
  let (_, rest) ← skipBlanks? cs
  some (rest, cs)

/-- Goes on with another text. -/
def resume (rest : List Char) : Read Unit := fun _ _ => some ((), rest)

/-- Takes a mark if it is next. -/
def mark? (symbol : String) : Read Bool := do
  if (← peek) = .mark symbol then
    let _ ← next
    pure true
  else pure false

/-- Takes a mark. -/
def mark (symbol : String) : Read Unit := do ensure (← mark? symbol)

/-- Whether a mark is next. -/
def atMark (symbol : String) : Read Bool := do pure ((← peek) = .mark symbol)

/-- Whether a keyword is next. -/
def atWord (name : String) : Read Bool := do pure ((← peek) = .word name false)

/-- Takes a keyword if it is next. -/
def word? (name : String) : Read Bool := do
  if ← atWord name then
    let _ ← next
    pure true
  else pure false

/-- Takes a keyword. -/
def word (name : String) : Read Unit := do ensure (← word? name)

/-- Takes any word. -/
def anyWord : Read String := do
  match ← next with
  | .word name _ => pure name
  | _ => refuse

/-- Words that cannot name a binding in a module. -/
def reserved : List String :=
  ["await", "break", "case", "catch", "class", "const", "continue", "debugger", "default", "delete",
    "do", "else", "enum", "export", "extends", "false", "finally", "for", "function", "if", "import",
    "in", "instanceof", "new", "null", "return", "super", "switch", "this", "throw", "true", "try",
    "typeof", "var", "void", "while", "with"]

/-- Takes a word that can name a binding. -/
def name : Read String := do
  let found ← anyWord
  ensure !(reserved.contains found)
  pure found

/-- Whether a word that can name a binding is next. -/
def atName : Read Bool := do
  match ← peek with
  | .word found _ => pure !(reserved.contains found)
  | _ => pure false

/-- Repeats a step until it gives nothing. The text that is left bounds the number of steps, for a
step that gives something takes some of it. -/
def repeatWhile {α : Type} (step : Read (Option α)) : Read (List α) := fun around cs =>
  go step (' ' :: cs) [] around cs
where
  go (step : Read (Option α)) : List Char → List α → Read (List α)
    | [], _ => refuse
    | _ :: bound, found => do
      match ← step with
      | some value => go step bound (value :: found)
      | none => pure found.reverse

/-- Repeats a step on its own result until it gives nothing, bounded in the same way. -/
def iterate {α : Type} (step : α → Read (Option α)) (start : α) : Read α := fun around cs =>
  go step (' ' :: cs) start around cs
where
  go (step : α → Read (Option α)) : List Char → α → Read α
    | [], _ => refuse
    | _ :: bound, value => do
      match ← step value with
      | some value => go step bound value
      | none => pure value

/-- Takes items with commas between them, and the mark that closes the list. A comma may stand
before that mark. -/
def commaList {α : Type} (close : String) (item : Read α) : Read (List α) := do
  let items ← repeatWhile do
    if ← atMark close then pure none
    else
      let value ← item
      if !(← atMark close) then mark ","
      pure (some value)
  mark close
  pure items

/-- Ends a statement: a semicolon, which may be missing before a closing brace, at the end, and
where the next lexeme is on a later line. -/
def endStatement : Read Unit := do
  if ← mark? ";" then pure ()
  else if (← atMark "\x7d") || (← peek) = .finish then pure ()
  else ensure (← onNewLine)

end Read

end StyleGraph.Script
