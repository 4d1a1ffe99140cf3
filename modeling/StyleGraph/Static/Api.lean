import StyleGraph.Static.Theme

/-!
# The style functions

The functions that a CSS-in-TS module may call.
-/

set_option autoImplicit false

namespace StyleGraph.Static

/-- A style function. -/
inductive Api
  | style
  | styleVariants
  | globalStyle
  | keyframes
  | fontFace
  | globalFontFace
  | createVar
  | fallbackVar
  | createThemeContract
  | assignVars
  | createTheme
  | createGlobalTheme
  deriving DecidableEq, Repr

namespace Api

/-- The functions with their names. -/
def table : List (String × Api) :=
  [("style", style), ("styleVariants", styleVariants), ("globalStyle", globalStyle),
    ("keyframes", keyframes), ("fontFace", fontFace), ("globalFontFace", globalFontFace),
    ("createVar", createVar), ("fallbackVar", fallbackVar),
    ("createThemeContract", createThemeContract), ("assignVars", assignVars),
    ("createTheme", createTheme), ("createGlobalTheme", createGlobalTheme)]

/-- The function with a name. -/
def ofName? (name : String) : Option Api := (table.find? fun entry => entry.1 = name).map Prod.snd

end Api

namespace Eval

/-- The classes that a style is composed of and the entries of its own rule. -/
structure StyleParts where
  composed : List String := []
  merged : Entries := []

/-- Adds one part of a style. -/
def StyleParts.add (parts : StyleParts) : Value → Except Fault StyleParts
  | .classes names => .ok { parts with composed := parts.composed ++ [names] }
  | .object entries => .ok { parts with merged := parts.merged.extend entries }
  | .undefined | .unresolved _ => .ok parts
  | _ => .error .rulePart

/-- A fresh class with its rule, composed with the classes that the rule lists. -/
def style (naming : Naming) (binding : Option String) (rule : Value) : Eval Value := do
  let name ← mintClass naming binding
  let given :=
    match rule with
    | .array items => items
    | other => [other]
  let parts ← lift (given.foldlM StyleParts.add {})
  recordStyle ("." ++ name) [] parts.merged
  pure (.classes (" ".intercalate (parts.composed ++ [name])))

/-- Styles by their keys. -/
def variants (naming : Naming) (binding : Option String) : Entries → Eval Entries
  | [] => pure []
  | (key, rule) :: rest => do
    let made ← style naming (some (Theme.partName binding key)) rule
    let more ← variants naming binding rest
    pure ((key, made) :: more)

/-- The text of the steps of an animation. -/
def frameTexts : Entries → Except Fault String
  | [] => .ok ""
  | (step, .object rule) :: rest => do
    let found ← declarations rule
    let more ← frameTexts rest
    pure ("  " ++ step ++ " \x7b\n" ++ declarationLines 2 found ++ "  \x7d\n" ++ more)
  | _ :: _ => .error .frameNotObject

/-- A font face of a family. -/
def recordFace (family : String) : Value → Eval Unit
  | .object rule => do
    let found ← lift (declarations rule)
    let family := ("font-family", "\"" ++ family ++ "\"")
    recordText ("@font-face \x7b\n" ++ declarationLines 1 (family :: found) ++ "\x7d\n")
  | _ => fail .faceNotObject

/-- A variable with a fallback in case it is not set; a text that is no variable stays. -/
def withFallback (reference inner : String) : String :=
  match Text.stripEnd? [')'] reference.toList with
  | some opened => String.ofList opened ++ ", " ++ inner ++ ")"
  | none => reference

/-- The text of each value. -/
def textsOf : List Value → Except Fault (List String)
  | [] => .ok []
  | value :: rest =>
    match value.asText? with
    | some text => do pure (text :: (← textsOf rest))
    | none => .error .fallbackPart

/-- The text of an argument. -/
def argumentText (value : Option Value) (fault : Fault) : Eval String :=
  match value.bind Value.asText? with
  | some text => pure text
  | none => fail fault

/-- Calls a style function, for a binding if its result gets one. -/
def callApi (naming : Naming) (binding : Option String) (api : Api) (arguments : List Value) :
    Eval Value := do
  let leading : Option Value := arguments[0]?
  let second : Option Value := arguments[1]?
  let third : Option Value := arguments[2]?
  let first := leading.getD .undefined
  match api with
  | .style =>
    let binding :=
      match second with
      | some (.text given) => some given
      | _ => binding
    style naming binding first
  | .styleVariants =>
    match first with
    | .object entries => pure (.object (← variants naming binding entries))
    | _ => fail .variantsNotObject
  | .globalStyle =>
    let selector ← argumentText leading .globalSelector
    match second with
    | some (.object rule) =>
      recordStyle (← resolveSelector selector) [] rule
      pure .undefined
    | _ => fail .globalRule
  | .keyframes =>
    match first with
    | .object frames =>
      let name ← mint naming binding
      let text ← lift (frameTexts frames)
      recordText ("@keyframes " ++ name ++ " \x7b\n" ++ text ++ "\x7d\n")
      pure (.text name)
    | _ => fail .framesNotObject
  | .fontFace =>
    let name ← mint naming binding
    let faces :=
      match leading with
      | some (.array items) => items
      | some other => [other]
      | none => []
    faces.forM (recordFace name)
    pure (.text name)
  | .globalFontFace =>
    let name ← argumentText leading .familyName
    recordFace name (second.getD .undefined)
    pure .undefined
  | .createVar => pure (.text ("var(--" ++ (← mint naming binding) ++ ")"))
  | .fallbackVar =>
    let texts ← lift (textsOf arguments)
    match texts.getLast? with
    | some last => pure (.text (texts.dropLast.foldr withFallback last))
    | none => fail .fallbackEmpty
  | .createThemeContract => Theme.contract naming binding first
  | .assignVars =>
    let tokens := second.getD .undefined
    pure (.object (← lift (Theme.assign first tokens [])))
  | .createTheme =>
    match second with
    | some (.object tokens) =>
      pure (.classes (← Theme.themeClass naming binding first (.object tokens)))
    | _ =>
      let made ← Theme.contract naming binding first
      let name ← Theme.themeClass naming binding made first
      pure (.array [.classes name, made])
  | .createGlobalTheme =>
    let selector ← argumentText leading .themeSelector
    let tree := second.getD .undefined
    match third with
    | some tokens =>
      Theme.recordAssigned selector (← lift (Theme.assign tree tokens []))
      pure .undefined
    | none =>
      let made ← Theme.contract naming binding tree
      Theme.recordAssigned selector (← lift (Theme.assign made tree []))
      pure made

end Eval

end StyleGraph.Static
