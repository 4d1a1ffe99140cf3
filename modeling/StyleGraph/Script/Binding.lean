import StyleGraph.Script.Annotation

/-!
# Patterns and parameters

What declarations and parameter lists bind. Only names and lists in brackets are kept; the rest is
checked and forgotten.
-/

set_option autoImplicit false

namespace StyleGraph.Script.Binding

open Read

variable (f : Flavor) (g : Grammar)

/-- A pattern that a default value may follow. -/
def withDefault : Read Pattern := do
  let found ← g.pattern
  if ← mark? "=" then
    let _ ← g.item {}
    pure .other
  else pure found

/-- An item of a list pattern: a hole, the rest of the list, or a pattern. Only the last one is
kept. -/
def listItem : Read (Option Pattern) := do
  if ← atMark "," then pure none
  else if ← mark? "..." then
    let _ ← g.pattern
    ensure (← atMark "]")
    pure none
  else pure (some (← withDefault g))

/-- A property of a pattern in braces. -/
def property : Read Unit := do
  if ← mark? "..." then
    let _ ← g.pattern
    ensure (← atMark "\x7d")
  else
    let shorthand ← attempt do
      let _ ← name
      ensure !(← atMark ":")
    match shorthand with
    | some _ =>
      if ← mark? "=" then
        let _ ← g.item {}
    | none =>
      let _ ← g.key
      mark ":"
      let _ ← withDefault g

/-- A pattern. -/
def pattern : Read Pattern := do
  if ← mark? "[" then
    let items ← commaList "]" (listItem g)
    pure (.list (items.filterMap id))
  else if ← mark? "\x7b" then
    let _ ← commaList "\x7d" (property g)
    pure .other
  else pure (.name (← name))

/-- Modifiers of a parameter that is also a member. -/
def modifiers : Read Unit := do
  let _ ← repeatWhile do
    match ← peek with
    | .word w false =>
      if f.types && ["public", "private", "protected", "readonly", "override"].contains w then
        let applies ← ahead do
          let _ ← next
          match ← peek with
          | .word _ _ | .mark "[" | .mark "\x7b" => pure ()
          | _ => refuse
        if applies then
          let _ ← next
          pure (some ())
        else pure none
      else pure none
    | _ => pure none

/-- A parameter of a function. -/
def parameter : Read Unit := do
  g.decorators
  modifiers f
  if ← mark? "..." then
    let _ ← g.pattern
    Annotation.colon? f g
    ensure (← atMark ")")
  else
    if f.types && (← word? "this") then pure ()
    else
      let _ ← g.pattern
    if f.types then
      let _ ← mark? "?"
    Annotation.colon? f g
    if ← mark? "=" then
      let _ ← g.item {}

/-- The parameters of a function, in parentheses. -/
def parameters : Read Unit := do
  mark "("
  let _ ← commaList ")" (parameter f g)

/-- The parameters, the result type and the body of a function; in scripts with types the body may
be missing. -/
def signature (bodyNeeded : Bool) : Read Unit := do
  Annotation.parameters? f g
  parameters f g
  Annotation.colon? f g
  if (← atMark "\x7b") || bodyNeeded || !f.types then g.block else endStatement

end StyleGraph.Script.Binding
