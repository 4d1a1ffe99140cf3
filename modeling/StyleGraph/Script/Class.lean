import StyleGraph.Script.Binding

/-!
# Classes and functions in scripts

Their syntax is checked; nothing of them is kept.
-/

set_option autoImplicit false

namespace StyleGraph.Script.Class

open Read

variable (f : Flavor) (g : Grammar)

/-- Words that may stand before the name of a member. -/
def modifierWords (types : Bool) : List String :=
  ["static", "async", "get", "set", "accessor"] ++
    if types then
      ["public", "private", "protected", "readonly", "abstract", "override", "declare"]
    else []

/-- Words before the name of a member. Such a word is the name itself when nothing that continues
a member head follows. -/
def modifiers : Read (List String) :=
  repeatWhile do
    match ← peek with
    | .word w false =>
      if (modifierWords f.types).contains w then
        let applies ← ahead do
          let _ ← next
          match ← peek with
          | .word _ _ | .hash _ | .text _ | .numeral _ => ensure !(← onNewLine)
          | .mark m => ensure (["[", "*"].contains m)
          | .finish => refuse
        if applies then
          let _ ← next
          pure (some w)
        else pure none
      else pure none
    | _ => pure none

/-- An index signature of a class. -/
def indexSignature : Read Unit := do
  mark "["
  let _ ← name
  mark ":"
  g.type
  mark "]"
  mark ":"
  g.type
  endStatement

/-- A member of a class. -/
def member : Read Unit := do
  if ← mark? ";" then pure ()
  else
    g.decorators
    let block ← attempt do
      word "static"
      ensure (← atMark "\x7b")
    match block with
    | some _ => within {} g.block
    | none =>
      let isAsync := (← modifiers f).contains "async"
      let index ← if f.types then attempt (indexSignature g) else pure none
      match index with
      | some _ => pure ()
      | none =>
        let isGenerator ← mark? "*"
        g.memberKey
        if f.types then
          if !(← mark? "?") then
            let _ ← mark? "!"
        if (← atMark "(") || (f.types && (← atMark "<")) then
          within (.ofFunction isAsync isGenerator) (Binding.signature f g false)
        else
          Annotation.colon? f g
          if ← mark? "=" then
            let _ ← g.item {}
          endStatement

/-- The types that a class claims to have. -/
def implemented : Read Unit := do
  if f.types && (← word? "implements") then
    let _ ← repeatWhile do
      g.type
      if ← mark? "," then pure (some ()) else pure none

/-- A class from its keyword on. -/
def classRest (nameNeeded : Bool) : Read Unit := do
  word "class"
  let anonymous := (← atWord "extends") || (← atWord "implements") || (← atMark "\x7b") ||
    (← atMark "<")
  if nameNeeded || !anonymous then
    let _ ← name
  Annotation.parameters? f g
  if ← word? "extends" then
    let _ ← g.callee
    Annotation.arguments? f g
  implemented f g
  mark "\x7b"
  let _ ← repeatWhile do
    if ← mark? "\x7d" then pure none else pure (some (← member f g))

/-- A function from its keyword on. In scripts with types a declared function may lack its
body. -/
def function (nameNeeded bodyNeeded : Bool) : Read Unit := do
  let isAsync ← word? "async"
  word "function"
  let isGenerator ← mark? "*"
  if nameNeeded || (← atName) then
    let _ ← name
  within (.ofFunction isAsync isGenerator) (Binding.signature f g bodyNeeded)

/-- Whether a function is next. -/
def atFunction : Read Bool := do
  if ← atWord "function" then pure true
  else
    ahead do
      word "async"
      ensure (← atWord "function")
      ensure !(← onNewLine)

end StyleGraph.Script.Class
