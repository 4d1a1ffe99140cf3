import StyleGraph.Script.Annotation

/-!
# Markup in scripts

Elements in angle brackets among the expressions. Only their syntax matters.
-/

set_option autoImplicit false

namespace StyleGraph.Script.Markup

open Read

variable (f : Flavor) (g : Grammar)

/-- A name of an element or attribute, in which hyphens may stand. -/
def hyphened : Read String := do
  let first ← anyWord
  let rest : Read String := fun _ cs =>
    let isPart (c : Char) : Bool := Literal.isWordPart c || c = '-'
    some (String.ofList (cs.takeWhile isPart), cs.dropWhile isPart)
  pure (first ++ (← rest))

/-- The name of an element: with a namespace before a colon, or members after dots. -/
def elementName : Read String := do
  let first ← hyphened
  if ← mark? ":" then pure (first ++ ":" ++ (← hyphened))
  else
    let members ← repeatWhile do
      if ← mark? "." then pure (some (← anyWord)) else pure none
    pure (".".intercalate (first :: members))

/-- A quoted attribute value, which knows no escapes and may go over several lines. -/
def quoted : Read Unit := do
  match ← remaining with
  | quote :: rest =>
    ensure (quote = '"' || quote.toNat = 0x27)
    match rest.dropWhile (· != quote) with
    | _ :: after => resume after
    | [] => refuse
  | [] => refuse

/-- The value of an attribute. -/
def attributeValue : Read Unit := do
  match ← remaining with
  | '{' :: _ =>
    mark "\x7b"
    let _ ← g.expression {}
    mark "\x7d"
  | '<' :: _ => g.element
  | _ => quoted

/-- An attribute, or all members of an object as attributes. -/
def attributeItem : Read Unit := do
  if ← mark? "\x7b" then
    mark "..."
    let _ ← g.item {}
    mark "\x7d"
  else
    let _ ← hyphened
    if ← mark? ":" then
      let _ ← hyphened
    if ← mark? "=" then attributeValue g

/-- Text between elements: up to the next brace or angle bracket, which closing ones may not be. -/
def text : Read Unit := fun _ cs =>
  let isText (c : Char) : Bool := !("\x7b\x7d<>".toList.contains c)
  match cs.dropWhile isText with
  | '{' :: rest => some ((), '{' :: rest)
  | '<' :: rest => some ((), '<' :: rest)
  | _ => none

/-- What stands between the tags of an element, up to its closing tag, whose name is given. -/
def children (close : String) : Read Unit := do
  let _ ← repeatWhile do
    text
    if ← mark? "\x7b" then
      if ← mark? "\x7d" then pure (some ())
      else
        let _ ← mark? "..."
        let _ ← g.expression {}
        mark "\x7d"
        pure (some ())
    else
      let closing ← attempt do
        mark "<"
        mark "/"
      match closing with
      | some _ =>
        if close.isEmpty then mark ">"
        else
          let name ← elementName
          ensure (name = close)
          mark ">"
        pure none
      | none =>
        g.element
        pure (some ())

/-- An element or a fragment, from its opening angle bracket on. -/
def element : Read Unit := do
  mark "<"
  if ← mark? ">" then children g ""
  else
    let name ← elementName
    Annotation.arguments? f g
    let _ ← repeatWhile do
      if (← atMark "/") || (← atMark ">") then pure none else pure (some (← attributeItem g))
    if ← mark? "/" then mark ">"
    else
      mark ">"
      children g name

end StyleGraph.Script.Markup
