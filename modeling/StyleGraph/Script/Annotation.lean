import StyleGraph.Script.Grammar

/-!
# Types in scripts

Type annotations, of which only the syntax matters: nothing of a type is kept.
-/

set_option autoImplicit false

namespace StyleGraph.Script.Annotation

open Read

variable (f : Flavor) (g : Grammar)

/-- Types in angle brackets. -/
def arguments : Read Unit := do
  mark "<"
  let types ← commaList ">" g.type
  ensure !types.isEmpty

/-- Types in angle brackets, where the flavour has types and they are next. -/
def arguments? : Read Unit := do
  if f.types && (← atMark "<") then arguments g

/-- A declared type parameter. -/
def parameter : Read Unit := do
  let modifier (word : String) : Read Unit := do
    if ← atWord word then
      if ← ahead (do let _ ← next; ensure (← (do pure (← atName) <||> atWord "in"))) then
        let _ ← next
  modifier "const"
  modifier "in"
  modifier "out"
  let _ ← name
  if ← word? "extends" then g.type
  if ← mark? "=" then g.type

/-- Declared type parameters in angle brackets. -/
def parameters : Read Unit := do
  mark "<"
  let found ← commaList ">" (parameter g)
  ensure !found.isEmpty

/-- Declared type parameters, where the flavour has types and they are next. -/
def parameters? : Read Unit := do
  if f.types && (← atMark "<") then parameters g

/-- A colon and a type, where the flavour has types and they are next. -/
def colon? : Read Unit := do
  if f.types && (← mark? ":") then g.type

/-- A parameter of a function type. -/
def valueParameter : Read Unit := do
  let _ ← mark? "..."
  if !(← word? "this") then
    let _ ← g.pattern
  let _ ← mark? "?"
  if ← mark? ":" then g.type

/-- The parameters of a function type in parentheses. -/
def valueParameters : Read Unit := do
  mark "("
  let _ ← commaList ")" (valueParameter g)

/-- The names of a qualified name after the first one. -/
def qualified : Read Unit := do
  let _ ← repeatWhile do
    if ← mark? "." then pure (some (← anyWord)) else pure none

/-- The rest of a template type after its backtick. -/
def template : Read Unit := do
  let _ ← repeatWhile fun around cs =>
    match Literal.piece? cs with
    | some (some _, .closed, rest) => some (none, rest)
    | some (some _, .expression, rest) => (do g.type; mark "\x7d"; pure (some ()) : Read _) around rest
    | _ => none

/-- The name of a member of an object type. -/
def memberName : Read Unit := do
  let _ ← g.key

/-- What follows the name of a member: parameters and a result type, or a type. -/
def memberRest : Read Unit := do
  let _ ← mark? "?"
  if (← atMark "(") || (← atMark "<") then
    if ← atMark "<" then parameters g
    valueParameters g
  if ← mark? ":" then g.type

/-- A word that belongs to the following member when it is not itself the member's name. -/
def memberModifier (word : String) : Read Unit := do
  if ← atWord word then
    let standsAlone ← ahead do
      let _ ← next
      match ← peek with
      | .mark "(" | .mark "<" | .mark ":" | .mark "?" | .mark ";" | .mark "," | .mark "\x7d" => pure ()
      | _ => refuse
    if !standsAlone then
      let _ ← next

/-- An index signature, or the head of a mapped type, after its opening bracket. -/
def indexRest : Read Unit := do
  let _ ← name
  if ← mark? ":" then
    g.type
  else
    word "in"
    g.type
    if ← word? "as" then g.type
  mark "]"
  if (← mark? "+") || (← mark? "-") then mark "?" else
    let _ ← mark? "?"
  if ← mark? ":" then g.type

/-- A member of an object type, or the one clause of a mapped type. -/
def member : Read Unit := do
  if (← mark? "+") || (← mark? "-") then word "readonly" else memberModifier "readonly"
  memberModifier "static"
  memberModifier "get"
  memberModifier "set"
  match ← peek with
  | .mark "(" | .mark "<" => memberRest g
  | .mark "[" =>
    match ← attempt (do mark "["; indexRest g) with
    | some _ => pure ()
    | none => do memberName g; memberRest g
  | .word "new" false =>
    let _ ← next
    memberRest g
  | _ =>
    memberName g
    memberRest g

/-- An object type, with its braces. -/
def object : Read Unit := do
  mark "\x7b"
  let _ ← repeatWhile do
    if ← mark? "\x7d" then pure none
    else
      member g
      if !(← mark? ";") && !(← mark? ",") && !(← atMark "\x7d") then ensure (← onNewLine)
      pure (some ())

/-- An item of a tuple type. -/
def tupleItem : Read Unit := do
  let _ ← mark? "..."
  let labelled ← attempt do
    let _ ← anyWord
    let _ ← mark? "?"
    mark ":"
  match labelled with
  | some _ => g.type
  | none =>
    g.type
    let _ ← mark? "?"

/-- The type of an import: its specifier, names and arguments. -/
def importType : Read Unit := do
  mark "("
  g.type
  if ← mark? "," then
    if !(← atMark ")") then
      let _ ← g.item {}
      let _ ← mark? ","
  mark ")"
  qualified
  if !(← onNewLine) && (← atMark "<") then arguments g

/-- A named type with its arguments, or a condition `name is type` of a result. -/
def named : Read Unit := do
  let _ ← anyWord
  if (← atWord "is") && !(← onNewLine) then
    let _ ← next
    g.type
  else
    qualified
    if (← atMark "<") && !(← onNewLine) then arguments g

/-- A type without operators around it. -/
def primary : Read Unit := do
  match ← peek with
  | .text _ | .numeral _ => let _ ← next
  | .mark "-" =>
    let _ ← next
    match ← next with
    | .numeral _ => pure ()
    | _ => refuse
  | .mark "\x60" =>
    let _ ← next
    template g
  | .mark "(" =>
    let _ ← next
    g.type
    mark ")"
  | .mark "[" =>
    let _ ← next
    let _ ← commaList "]" (tupleItem g)
  | .mark "\x7b" => object g
  | .word "typeof" false =>
    let _ ← next
    if ← word? "import" then importType g
    else
      let _ ← anyWord
      let _ ← repeatWhile do
        if ← mark? "." then
          match ← next with
          | .word _ _ | .hash _ => pure (some ())
          | _ => refuse
        else pure none
      if (← atMark "<") && !(← onNewLine) then arguments g
  | .word "import" false =>
    let _ ← next
    importType g
  | .word "asserts" false =>
    let subject ← ahead do
      let _ ← next
      ensure !(← onNewLine)
      let _ ← anyWord
    if subject then
      let _ ← next
    named g
  | .word found _ =>
    ensure !((Read.reserved.filter fun w =>
      !(["this", "null", "true", "false", "void"].contains w)).contains found)
    named g
  | _ => refuse

/-- A type with brackets after it. -/
def bracketed : Read Unit := do
  primary g
  let _ ← repeatWhile do
    if (← atMark "[") && !(← onNewLine) then
      mark "["
      if !(← mark? "]") then
        g.type
        mark "]"
      pure (some ())
    else pure none

/-- A type with operators before it. -/
def prefixed : Read Unit := do
  let _ ← repeatWhile do
    let operator ← ahead do
      match ← next with
      | .word "keyof" false | .word "unique" false | .word "readonly" false =>
        match ← peek with
        | .word w _ => ensure (w != "is")
        | .mark m => ensure (["(", "[", "\x7b", "\x60"].contains m)
        | .text _ => pure ()
        | _ => refuse
      | _ => refuse
    if operator then
      let _ ← next
      pure (some ())
    else pure none
  let inferred ← ahead do
    word "infer"
    ensure (← atName)
  if inferred then
    word "infer"
    let _ ← name
    let _ ← attempt do
      word "extends"
      g.type
      ensure !(← atMark "?")
  else bracketed g

/-- Types with one operator between them, which may also stand before the first one. -/
def chain (symbol : String) (part : Read Unit) : Read Unit := do
  let _ ← mark? symbol
  part
  let _ ← repeatWhile do
    if ← mark? symbol then pure (some (← part)) else pure none

/-- A union of intersections of types. -/
def union : Read Unit := chain "|" (chain "&" (prefixed g))

/-- A function type without what may stand before it. -/
def function : Read Unit := do
  if ← atMark "<" then parameters g
  valueParameters g
  mark "=>"
  g.type

/-- A type: a function type, or a union, which may be the subject of a condition. -/
def type : Read Unit := do
  let _ ← attempt (do word "abstract"; ensure (← atWord "new"))
  if ← word? "new" then function g
  else if ← atMark "<" then function g
  else
    let isFunction ← ahead do
      valueParameters g
      mark "=>"
    if isFunction then function g
    else
      union g
      if (← atWord "extends") && !(← onNewLine) then
        let conditional ← attempt do
          word "extends"
          g.type
          mark "?"
        if conditional.isSome then
          g.type
          mark ":"
          g.type

end StyleGraph.Script.Annotation
