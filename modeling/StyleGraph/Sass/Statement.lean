import StyleGraph.Sass.Selector

/-!
# Statements of Sass

A sheet is a list of statements. It is written with braces, or with one statement on a line and
indentation for what stands inside another statement.
-/

set_option autoImplicit false

namespace StyleGraph.Sass

/-- How a sheet is written. -/
inductive Layout
  | braces
  | indented
  /-- With braces, and without anything that is not CSS. -/
  | plain
  deriving DecidableEq, Repr, Inhabited

/-- A part of a media query. -/
inductive MediaPart
  | word (text : String)
  | feature (name : String) (value : Option Expr)
  deriving Repr, Inhabited

/-- A statement. -/
inductive Statement
  | variable (name : String) (value : Expr) (isDefault isGlobal : Bool)
  | declaration (name : String) (value : Expr)
  /-- A custom property, whose value is kept as it is written. -/
  | custom (name value : String)
  | rule (selectors : List Selector) (body : List Statement)
  /-- Uses a module under a name, or without one. -/
  | use (url : String) (space : Option String)
  /-- Statements under a name, with parameters, each perhaps with a value of its own. -/
  | mixin (name : String) (parameters : List (String × Option Expr)) (body : List Statement)
  /-- The statements of a mixin, given values for its parameters, each perhaps by its name. -/
  | included (name : String) (args : List (Option String × Expr))
  /-- Statements for some media. -/
  | media (queries : List (List MediaPart)) (body : List Statement)
  | comment (text : String)
  deriving Repr, Inhabited

/-- A refusal of a text. -/
def refuse {α : Type} : Except Refusal α := .error .malformed

/-- What is there, or a refusal. -/
def orRefuse {α : Type} (value : Option α) : Except Refusal α :=
  match value with
  | some value => .ok value
  | none => refuse

/-- The name under which a module is used, unless it has another: the last name of its address
without the mark of a partial and without extensions. -/
def spaceOf (url : String) : String :=
  let (_, last) := Text.cutAfterLast '/' url.toList
  let last := if last.head? = some '_' then last.drop 1 else last
  String.ofList (last.takeWhile (· != '.'))

/-- Drops a flag such as `!default` at the end of a value. -/
def cutFlag (flag : String) (cs : List Char) : List Char × Bool :=
  match Text.stripEnd? ('!' :: flag.toList) (Text.trimEnd cs) with
  | some rest => (rest, true)
  | none => (cs, false)

/-- A variable's statement, after its dollar sign. -/
def readVariable (cs : List Char) : Except Refusal Statement :=
  orRefuse do
    let (name, rest) ← readName? cs
    match skipBlanks rest with
    | ':' :: value => do
      let (value, isGlobal) := cutFlag "global" value
      let (value, isDefault) := cutFlag "default" value
      let (value, later) := cutFlag "global" value
      let value ← Expr.ofText? value
      some (.variable (plainName name) value isDefault (isGlobal || later))
    | _ => none

/-- The use of a module, after its keyword. -/
def readUse (cs : List Char) : Except Refusal Statement :=
  orRefuse do
    match cs.dropWhile isSpace with
    | quote :: rest =>
      if quote = '"' || quote.toNat = 0x27 then do
        let (url, rest) ← readQuoted? quote rest
        let url := String.ofList url
        match skipBlanks rest with
        | [] => some (.use url (some (spaceOf url)))
        | 'a' :: 's' :: rest =>
          match Text.trim rest with
          | ['*'] => some (.use url none)
          | name => do
            let (name, rest) ← readName? name
            if rest.isEmpty then some (.use url (some name)) else none
        | _ => none
      else none
    | [] => none

/-- A declaration: a name, a colon and a value. -/
def readDeclaration (cs : List Char) : Except Refusal Statement :=
  orRefuse do
    let (name, rest) ← readName? cs
    match skipBlanks rest with
    | ':' :: value =>
      if Text.startsWith ['-', '-'] name.toList then
        some (.custom name (String.ofList (Text.trim value)))
      else (Expr.ofText? value).map (.declaration name)
    | _ => none

/-- The items of a list in parentheses, after the opening one, with commas between them. Nothing may
follow the list. `fuel` bounds their number. -/
def readListed? {α : Type} (item? : List Char → Option (α × List Char)) :
    Nat → List Char → Option (List α)
  | 0, _ => none
  | fuel + 1, cs =>
    match skipBlanks cs with
    | ')' :: rest => if (skipBlanks rest).isEmpty then some [] else none
    | cs => do
      let (item, rest) ← item? cs
      match skipBlanks rest with
      | ',' :: rest => (readListed? item? fuel rest).map (item :: ·)
      | ')' :: rest => if (skipBlanks rest).isEmpty then some [item] else none
      | _ => none

/-- A list in parentheses, which may be missing if it is empty. -/
def readOptionalList? {α : Type} (item? : List Char → Option (α × List Char))
    (cs : List Char) : Option (List α) :=
  match skipBlanks cs with
  | [] => some []
  | '(' :: rest => readListed? item? (rest.length + 1) rest
  | _ => none

/-- An expression without commas at its top, and what follows it. -/
def readItem? (cs : List Char) : Option (Expr × List Char) :=
  readSpaces? (8 * cs.length + 8) [] (skipBlanks cs)

/-- A dollar sign, a name and a colon. -/
def readVariableName? (cs : List Char) : Option (String × List Char) :=
  match cs with
  | '$' :: rest => do
    let (name, rest) ← readName? rest
    match skipBlanks rest with
    | ':' :: rest => some (plainName name, rest)
    | _ => none
  | _ => none

/-- A parameter of a mixin, perhaps with a value of its own. -/
def readParameter? (cs : List Char) : Option ((String × Option Expr) × List Char) :=
  match readVariableName? cs with
  | some (name, rest) => (readItem? rest).map fun (value, rest) => ((name, some value), rest)
  | none =>
    match cs with
    | '$' :: rest => (readName? rest).map fun (name, rest) => ((plainName name, none), rest)
    | _ => none

/-- A value for a parameter of a mixin, perhaps with its name. -/
def readArgument? (cs : List Char) : Option ((Option String × Expr) × List Char) :=
  match readVariableName? cs with
  | some (name, rest) => (readItem? rest).map fun (value, rest) => ((some name, value), rest)
  | none => (readItem? cs).map fun (value, rest) => ((none, value), rest)

/-- The use of a mixin, after its keyword. -/
def readInclude (cs : List Char) : Except Refusal Statement :=
  orRefuse do
    let (name, rest) ← readName? (skipBlanks cs)
    let args ← readOptionalList? readArgument? rest
    some (.included (plainName name) args)

/-- The parts of a media query. `fuel` bounds their number. -/
def readMedia? : Nat → List Char → Option (List MediaPart)
  | 0, _ => none
  | fuel + 1, cs =>
    match skipBlanks cs with
    | [] => some []
    | '(' :: rest => do
      let (name, rest) ← readName? (skipBlanks rest)
      let (value, rest) ← match skipBlanks rest with
        | ':' :: rest => (readItem? rest).map fun (value, rest) => (some value, rest)
        | rest => some (none, rest)
      match skipBlanks rest with
      | ')' :: rest => (readMedia? fuel rest).map (.feature name value :: ·)
      | _ => none
    | cs => do
      let (name, rest) ← readName? cs
      (readMedia? fuel rest).map (.word name :: ·)

/-- Whether a text begins with a keyword. -/
def afterKeyword? (keyword : String) (cs : List Char) : Option (List Char) :=
  (Text.stripStart? keyword.toList cs).bind fun rest =>
    if rest.head?.any isNameChar then none else some rest

/-- A statement that has nothing inside: a variable, the use of a module or a declaration. -/
def readLine (cs : List Char) : Except Refusal Statement :=
  match cs with
  | '$' :: rest => readVariable rest
  | '@' :: rest =>
    match afterKeyword? "use" rest, afterKeyword? "include" rest with
    | some rest, _ => readUse rest
    | _, some rest => readInclude rest
    | none, none => refuse
  | cs => readDeclaration cs

/-- A statement whose text, an at-rule, has others inside: a mixin, or rules for some media. -/
def readOuter (cs : List Char) (body : List Statement) : Except Refusal Statement :=
  orRefuse do
    match afterKeyword? "mixin" cs, afterKeyword? "media" cs with
    | some rest, _ => do
      let (name, rest) ← readName? (skipBlanks rest)
      let parameters ← readOptionalList? readParameter? rest
      some (.mixin (plainName name) parameters body)
    | _, some rest => do
      let queries ← (Selector.cutCommas 0 rest).mapM fun query =>
        readMedia? (query.length + 1) query
      if queries.any List.isEmpty then none else some (.media queries body)
    | none, none => none

mutual

/-- Whether an expression is CSS. -/
def Expr.isPlain : Expr → Bool
  | .variable _ _ | .binary _ _ _ | .group _ => false
  | .call _ args => exprsArePlain args
  | .list _ items => exprsArePlain items
  | .word _ | .number _ | .quoted _ => true

/-- Whether expressions are CSS. -/
def exprsArePlain : List Expr → Bool
  | [] => true
  | expr :: rest => expr.isPlain && exprsArePlain rest

end

/-- Whether a part of a media query is CSS. -/
def MediaPart.isPlain : MediaPart → Bool
  | .word _ => true
  | .feature _ value => value.all Expr.isPlain

mutual

/-- Whether a statement is CSS. -/
def Statement.isPlain (isInside : Bool) : Statement → Bool
  | .variable _ _ _ _ | .use _ _ | .mixin _ _ _ | .included _ _ => false
  | .media queries body =>
    !isInside && arePlain false body && queries.all fun query => query.all MediaPart.isPlain
  | .rule selectors body =>
    !isInside && !(selectors.any Selector.hasParent) && arePlain true body
  | .declaration _ value => value.isPlain
  | .custom _ _ | .comment _ => true

/-- Whether statements are CSS. -/
def arePlain (isInside : Bool) : List Statement → Bool
  | [] => true
  | statement :: rest => statement.isPlain isInside && arePlain isInside rest

end

end StyleGraph.Sass
