import StyleGraph.Script.Formula

/-!
# Declarations of scripts

Variables, and the declarations that only scripts with types have.
-/

set_option autoImplicit false

namespace StyleGraph.Script.Declaration

open Read

variable (f : Flavor) (g : Grammar)

/-- The words that begin variable declarations. -/
inductive Kind
  | changing
  /-- The value is given at once and stays. -/
  | fixed
  deriving DecidableEq, Repr, Inhabited

/-- One variable with its value, if one is given. -/
def declarator (place : Place) : Read Declarator := do
  let target ← g.pattern
  if f.types then
    let _ ← mark? "!"
  Annotation.colon? f g
  if ← mark? "=" then pure { target, value := some (← g.item place) }
  else pure { target }

/-- Variables with commas between them. -/
def declarators (place : Place) : Read (List Declarator) := do
  let first ← declarator f g place
  let rest ← repeatWhile do
    if ← mark? "," then pure (some (← declarator f g place)) else pure none
  pure (first :: rest)

/-- Whether a variable may go without a value: in ambient scripts always, else when it is a name
whose value can change. -/
def mayLackValue (kind : Kind) (target : Pattern) : Bool :=
  f.ambient ||
    match kind, target with
    | .changing, .name _ => true
    | _, _ => false

/-- Whether each variable has the value that it needs. -/
def complete (kind : Kind) (found : List Declarator) : Bool :=
  found.all fun d => d.value.isSome || mayLackValue f kind d.target

/-- Takes the word that begins variable declarations, if it is next: `var`, `let` in front of what
can be bound, `const` if it does not begin an enumeration, `using` in front of a name. -/
def kind? : Read (Option Kind) := do
  if ← word? "var" then pure (some .changing)
  else if ← ahead (do word "const"; ensure !(← atWord "enum")) then
    word "const"
    pure (some .fixed)
  else if ← ahead (do word "let"; ensure ((← atName) || (← atMark "[") || (← atMark "\x7b"))) then
    word "let"
    pure (some .changing)
  else if ← ahead (do
      word "using"
      ensure !(← onNewLine)
      ensure ((← atName) && !(← atWord "of"))) then
    word "using"
    pure (some .fixed)
  else if ← ahead (do
      word "await"
      ensure !(← onNewLine)
      word "using"
      ensure ((← atName) && !(← onNewLine))) then
    word "await"
    word "using"
    pure (some .fixed)
  else pure none

/-- A variable statement after its beginning. -/
def variableStatement (kind : Kind) : Read (List Declarator) := do
  let found ← declarators f g {}
  ensure (complete f kind found)
  endStatement
  pure found

/-- An enumeration. -/
def enumeration : Read Unit := do
  let _ ← word? "const"
  word "enum"
  let _ ← name
  mark "\x7b"
  let _ ← commaList "\x7d" do
    let _ ← g.key
    if ← mark? "=" then
      let _ ← g.item {}

/-- An interface after its keyword. -/
def interfaceRest : Read Unit := do
  let _ ← name
  if ← atMark "<" then Annotation.parameters g
  if ← word? "extends" then
    let _ ← repeatWhile do
      g.type
      if ← mark? "," then pure (some ()) else pure none
  Annotation.object g

/-- A named type after its keyword. -/
def aliasRest : Read Unit := do
  let _ ← name
  if ← atMark "<" then Annotation.parameters g
  mark "="
  g.type
  endStatement

/-- Statements of a namespace, in braces. -/
def body (statement : Read Statement) : Read Unit := do
  mark "\x7b"
  let _ ← repeatWhile do
    if ← mark? "\x7d" then pure none else pure (some (← statement))

/-- A namespace after its keyword: a name with dots, or a quoted name, which may have no body. -/
def namespaceRest (statement : Read Statement) : Read Unit := do
  match ← next with
  | .text _ => if ← atMark "\x7b" then body statement else endStatement
  | .word _ _ =>
    let _ ← repeatWhile do
      if ← mark? "." then pure (some (← anyWord)) else pure none
    body statement
  | _ => refuse

/-- What a declaration leaves behind: its variables, or nothing. -/
abbrev Found := Option (List Declarator)

/-- Whether a keyword is followed by a name on its line. -/
def namesOnLine (keyword : String) : Read Bool :=
  ahead do
    word keyword
    ensure ((← atName) && !(← onNewLine))

/-- A declaration that only scripts with types have. -/
def typed? (statement : Read Statement) : Read (Option Found) := do
  if !f.types then pure none
  else if ← namesOnLine "interface" then
    word "interface"
    interfaceRest g
    pure (some none)
  else if ← ahead (do
      word "type"
      ensure !(← onNewLine)
      let _ ← name
      ensure ((← atMark "<") || (← atMark "="))) then
    word "type"
    aliasRest g
    pure (some none)
  else if (← atWord "enum") || (← ahead (do word "const"; word "enum")) then
    enumeration g
    pure (some none)
  else if ← ahead (do word "abstract"; ensure ((← atWord "class") && !(← onNewLine))) then
    word "abstract"
    Class.classRest f g true
    pure (some none)
  else if (← namesOnLine "namespace") then
    word "namespace"
    namespaceRest statement
    pure (some none)
  else if ← ahead (do
      word "module"
      ensure !(← onNewLine)
      match ← peek with
      | .text _ => pure ()
      | _ => ensure (← atName)) then
    word "module"
    namespaceRest statement
    pure (some none)
  else if ← ahead (do word "global"; ensure (← atMark "\x7b")) then
    word "global"
    body statement
    pure (some none)
  else pure none

/-- A declaration that may be exported, without types only where the flavour lacks them. -/
def plain? : Read (Option Found) := do
  match ← kind? with
  | some kind => pure (some (some (← variableStatement f g kind)))
  | none =>
    if ← Class.atFunction then
      Class.function f g true false
      pure (some none)
    else if (← atWord "class") || (← atMark "@") then
      g.decorators
      if f.types then
        let _ ← word? "abstract"
      Class.classRest f g true
      pure (some none)
    else pure none

/-- Whether `declare` begins a declaration here. -/
def atDeclare : Read Bool :=
  ahead do
    ensure f.types
    word "declare"
    ensure !(← onNewLine)
    match ← peek with
    | .word w false =>
      ensure (["var", "let", "const", "using", "function", "async", "class", "abstract", "interface",
        "type", "enum", "namespace", "module", "global"].contains w)
    | _ => refuse

/-- A declaration, which may be one without values. -/
def any? : Read (Option Found) := do
  if ← atDeclare f then
    word "declare"
    let f := { f with ambient := true }
    match ← typed? f g g.declared with
    | some found => pure (some found)
    | none => plain? f g
  else
    match ← typed? f g g.statement with
    | some found => pure (some found)
    | none => plain? f g

end StyleGraph.Script.Declaration
