import StyleGraph.Script.Class
import StyleGraph.Script.Operator

/-!
# Operands of scripts

Literals, references, calls: all that operators connect. An object or an array is also read as the
pattern that it may turn out to be.
-/

set_option autoImplicit false

namespace StyleGraph.Script.Operand

open Read

variable (f : Flavor) (g : Grammar)

/-- The rest of a template after its opening backtick. An escape without a value is allowed only
after a tag. -/
def template (tagged : Bool) : Read Expression := do
  let piece : Read (String × Literal.PieceEnd) := fun _ cs => do
    let (value, ending, rest) ← Literal.piece? cs
    match value with
    | some value => some ((value, ending), rest)
    | none => if tagged then some (("", ending), rest) else none
  let (head, ending) ← piece
  let start : List Part × Literal.PieceEnd := ([], ending)
  let (parts, _) ← iterate (fun (parts, ending) => do
    match ending with
    | .closed => pure none
    | .expression =>
      let value ← g.expression {}
      mark "\x7d"
      let (following, ending) ← piece
      pure (some (Part.mk value following :: parts, ending))) start
  pure (.template head parts.reverse)

/-- What is known of a list or an object that may be a pattern: its items so far. -/
structure Literals (α : Type) where
  items : List α
  target : Bool
  pending : Bool

/-- An item of an array: a hole, all items of another list, or a value. -/
def arrayItem : Read (Item × Operand) := do
  if ← atMark "," then pure (.irregular, { target := true })
  else if ← mark? "..." then
    let found ← g.assignment {}
    pure (.irregular, found)
  else
    let found ← g.assignment {}
    pure (.single found.value, found)

/-- An array after its opening bracket. -/
def array : Read Operand := do
  let items ← commaList "]" (arrayItem g)
  pure {
    value := .array (items.map Prod.fst)
    target := items.all fun (_, operand) => operand.target || operand.assigned
    pending := items.any fun (_, operand) => operand.pending }

/-- Whether the next word only modifies the property that follows it. -/
def modifiesProperty (modifier : String) : Read Bool :=
  ahead do
    word modifier
    if modifier = "async" then ensure !(← onNewLine)
    match ← peek with
    | .word _ _ | .text _ | .numeral _ => pure ()
    | .mark m => ensure (m = "[" || (m = "*" && modifier = "async"))
    | _ => refuse

/-- A method of an object, from its name on. -/
def method (isAsync : Bool) : Read (Property × Operand) := do
  let isGenerator ← mark? "*"
  let key ← g.key
  within (.ofFunction isAsync isGenerator) (Binding.signature f g true)
  pure (.keyed key .other, {})

/-- A property of an object. -/
def property : Read (Property × Operand) := do
  if ← mark? "..." then
    let found ← g.assignment {}
    pure (.spread found.value, found)
  else
    if (← modifiesProperty "get") || (← modifiesProperty "set") then
      let _ ← next
      method f g false
    else if ← modifiesProperty "async" then
      let _ ← next
      method f g true
    else if ← atMark "*" then method f g false
    else
      let shorthand ← attempt do
        let found ← name
        ensure ((← atMark ",") || (← atMark "\x7d") || (← atMark "="))
        pure found
      match shorthand with
      | some found =>
        if ← mark? "=" then
          let _ ← g.item {}
          pure (.keyed (.named found) .other, { target := true, pending := true })
        else pure (.keyed (.named found) (.name found), { target := true })
      | none =>
        let key ← g.key
        if ← mark? ":" then
          let found ← g.assignment {}
          pure (.keyed key found.value, found)
        else
          within (.ofFunction false false) (Binding.signature f g true)
          pure (.keyed key .other, {})

/-- An object after its opening brace. -/
def object : Read Operand := do
  let found ← commaList "\x7d" (property f g)
  pure {
    value := .object (found.map Prod.fst)
    target := found.all fun (_, operand) => operand.target || operand.assigned
    pending := found.any fun (_, operand) => operand.pending }

/-- An expression in parentheses, after the opening one. -/
def parenthesized : Read Operand := do
  let first ← g.assignment {}
  let first ← first.settled
  let rest ← repeatWhile do
    if ← mark? "," then pure (some (← g.item {})) else pure none
  mark ")"
  if rest.isEmpty then
    pure { value := .group first.value, target := first.reference, reference := first.reference }
  else pure (plain (.group .other))

/-- The arguments of a call, in parentheses. -/
def arguments : Read (List Item) := do
  mark "("
  commaList ")" do
    if ← mark? "..." then
      let _ ← g.item {}
      pure .irregular
    else pure (.single (← g.item {}))

/-- An import as an expression, or the properties of the module itself. -/
def importExpression : Read Operand := do
  word "import"
  if ← mark? "." then
    let _ ← anyWord
    pure (plain .other)
  else
    mark "("
    let found ← commaList ")" (g.item {})
    ensure (found.length = 1 || found.length = 2)
    pure (plain .other)

/-- An operand without members, calls or a leading `new`. -/
def atom : Read Operand := do
  match ← peek with
  | .text value =>
    let _ ← next
    pure (plain (.text value))
  | .numeral (some value) =>
    let _ ← next
    pure (plain (.number value))
  | .numeral none =>
    let _ ← next
    pure (plain .other)
  | .hash _ =>
    let _ ← next
    ensure (← atWord "in")
    pure (plain .other)
  | .mark "\x60" =>
    let _ ← next
    pure (plain (← template g false))
  | .mark "(" =>
    let _ ← next
    parenthesized g
  | .mark "[" =>
    let _ ← next
    array g
  | .mark "\x7b" =>
    let _ ← next
    object f g
  | .mark "/" | .mark "/=" =>
    match ← remaining with
    | _ :: rest =>
      match Literal.pattern? rest with
      | some after =>
        resume after
        pure (plain .other)
      | none => refuse
    | [] => refuse
  | .mark "<" =>
    ensure f.markup
    g.element
    pure (plain .other)
  | .mark "@" =>
    g.decorators
    Class.classRest f g false
    pure (plain .other)
  | .word "import" false => importExpression g
  | .word "class" false =>
    Class.classRest f g false
    pure (plain .other)
  | .word "null" false =>
    let _ ← next
    pure (plain .null)
  | .word "super" false =>
    let _ ← next
    ensure ((← atMark ".") || (← atMark "[") || (← atMark "("))
    pure (plain .other)
  | .word "this" false | .word "true" false | .word "false" false =>
    let _ ← next
    pure (plain .other)
  | .word _ _ =>
    if ← Class.atFunction then
      Class.function f g false true
      pure (plain .other)
    else
      let found ← name
      pure (referring (.name found))
  | _ => refuse

/-- A member of an operand by name, the dot having been read. -/
def memberName : Read (Option String) := do
  match ← next with
  | .word found _ => pure (some found)
  | .hash _ => pure none
  | _ => refuse

/-- What follows an operand: members, calls, tags. The flag tells that `?.` stood before, which
makes all that follows depend on a value that may be missing. -/
def suffix (calls : Bool) (state : Operand × Bool) : Read (Option (Operand × Bool)) := do
  let (operand, chained) := state
  let extended (value : Expression) (reference : Bool) : Read (Option (Operand × Bool)) := do
    let operand ← operand.settled
    let _ := operand
    if chained then pure (some (plain .other, true))
    else pure (some ({ value, target := reference, reference }, false))
  match ← peek with
  | .mark "." =>
    let _ ← next
    match ← memberName with
    | some found => extended (.member operand.value found) true
    | none => extended .other true
  | .mark "?." =>
    ensure calls
    let _ ← next
    if ← atMark "(" then
      let _ ← arguments g
    else if ← mark? "[" then
      let _ ← g.expression {}
      mark "]"
    else if f.types && (← atMark "<") then
      Annotation.arguments g
      let _ ← arguments g
    else
      let _ ← memberName
    pure (some (plain .other, true))
  | .mark "[" =>
    let _ ← next
    let key ← g.expression {}
    mark "]"
    extended (.index operand.value key) true
  | .mark "(" =>
    if calls then
      let given ← arguments g
      extended (.call operand.value given) false
    else pure none
  | .mark "\x60" =>
    let _ ← next
    let _ ← template g true
    extended .other false
  | .mark "!" =>
    if f.types && !(← onNewLine) then
      let _ ← next
      extended (.group operand.value) operand.reference
    else pure none
  | .mark "<" =>
    if f.types then
      let applied ← attempt do
        Annotation.arguments g
        ensure (← Operator.followsArguments)
      match applied with
      | some _ =>
        if (← atMark "(") && calls then
          let given ← arguments g
          extended (.call operand.value given) false
        else if (← atMark "(") || (← atMark "\x60") then pure (some (operand, chained))
        else extended .other false
      | none => pure none
    else pure none
  | _ => pure none

/-- `new` with what it makes and the arguments, which may be missing. -/
def construct : Read Operand := do
  word "new"
  if ← mark? "." then
    let _ ← anyWord
    pure (plain .other)
  else
    if ← atWord "new" then
      let _ ← g.callee
    else
      let first ← atom f g
      let _ ← iterate (suffix f g false) (first, false)
    if ← atMark "(" then
      let _ ← arguments g
    pure (plain .other)

/-- A reference with its members and calls. -/
def callee : Read Operand := do
  let first ← if ← atWord "new" then construct f g else atom f g
  let (operand, _) ← iterate (suffix f g true) (first, false)
  pure operand

end StyleGraph.Script.Operand
