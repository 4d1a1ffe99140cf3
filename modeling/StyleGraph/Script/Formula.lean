import StyleGraph.Script.Operand

/-!
# Expressions of scripts

Operators, assignments and functions in arrow form, on top of the operands.
-/

set_option autoImplicit false

namespace StyleGraph.Script.Formula

open Read

variable (f : Flavor) (g : Grammar)

/-- The operators before an operand that are marks. -/
def prefixMarks : List String := ["+", "-", "!", "~"]

/-- The operators before an operand that are words. -/
def prefixWords : List String := ["typeof", "void", "delete", "await"]

/-- An operand with the operators that change a reference after it. -/
def updated : Read Operand := do
  let operand ← Operand.callee f g
  if ((← atMark "++") || (← atMark "--")) && !(← onNewLine) then
    ensure operand.reference
    let _ ← next
    pure (Operand.plain .other)
  else pure operand

/-- One operator before an operand. -/
inductive Before
  | minus
  /-- An operator that changes a reference. -/
  | update
  | other
  deriving DecidableEq, Repr

/-- Takes the operator before an operand that is next. -/
def before? : Read (Option Before) := do
  match ← peek with
  | .mark "-" =>
    let _ ← next
    pure (some .minus)
  | .mark "++" | .mark "--" =>
    let _ ← next
    pure (some .update)
  | .mark "<" =>
    if f.types && !f.markup then
      mark "<"
      g.type
      mark ">"
      pure (some .other)
    else pure none
  | .mark m =>
    if prefixMarks.contains m then
      let _ ← next
      pure (some .other)
    else pure none
  | .word w false =>
    if prefixWords.contains w then
      ensure (w ≠ "await" || (← read).awaits)
      let _ ← next
      pure (some .other)
    else pure none
  | _ => pure none

/-- Puts an operator before an operand. -/
def apply (operand : Operand) (operator : Before) : Read Operand := do
  let operand ← operand.settled
  match operator with
  | .minus => pure { value := .negate operand.value, signed := true }
  | .update =>
    ensure operand.reference
    pure (Operand.plain .other)
  | .other => pure { value := .other, signed := true }

/-- An operand with its operators before and after. -/
def signed : Read Operand := do
  let operators ← repeatWhile (before? f g)
  let operand ← updated f g
  operators.reverse.foldlM apply operand

/-- An operand and a type that it is taken to have, as often as given. -/
def annotated (operand : Operand) : Read (Option Operand) := do
  let given ← (do pure (← atWord "as") <||> atWord "satisfies")
  if f.types && given && !(← onNewLine) then
    let operand ← operand.settled
    let _ ← next
    if !(← word? "const") then g.type
    pure (some { operand with value := .group operand.value, signed := false })
  else pure none

/-- What is known of operands with operators between them: the value so far, and the operators. -/
structure Chain where
  operand : Operand
  operators : List String := []

/-- One more operator, with its operand, or one more annotation. -/
def extend (place : Place) (chain : Chain) : Read (Option Chain) := do
  match ← annotated f g chain.operand with
  | some operand => pure (some { chain with operand })
  | none =>
    match ← Operator.binary? place.relational with
    | some operator =>
      let _ ← chain.operand.settled
      ensure !(operator = "**" && chain.operand.signed)
      let second ← signed f g
      let _ ← second.settled
      pure (some {
        operand := { value := .other, signed := second.signed }
        operators := operator :: chain.operators })
    | none => pure none

/-- Operands with operators between them. `??` and the logical operators do not mix. -/
def chained (place : Place) : Read Operand := do
  let first ← signed f g
  let chain ← iterate (extend f g place) { operand := first }
  ensure !(chain.operators.contains "??" &&
    (chain.operators.contains "||" || chain.operators.contains "&&"))
  pure chain.operand

/-- The two branches of a conditional after the question mark. A colon belongs to the condition
where it can. -/
def branches (place : Place) : Read Unit := do
  let first ← attempt do
    let _ ← g.item { relational := true, resultTypes := place.resultTypes }
    mark ":"
  if first.isNone then
    let _ ← g.item { relational := true, resultTypes := false }
    mark ":"
  let _ ← g.item place

/-- The parameters of a function in arrow form, through its arrow. Tells whether the function is
asynchronous. -/
def arrowHead (place : Place) : Read Bool := do
  let marked ← attempt do
    word "async"
    ensure !(← onNewLine)
    ensure ((← atName) || (← atMark "(") || (← atMark "<"))
  if ← atName then
    let _ ← name
  else
    if f.types && f.markup && (← atMark "<") then
      ensure (← ahead (do
        mark "<"
        let _ ← name
        ensure ((← atMark ",") || (← atMark "=") || (← atWord "extends"))))
    Annotation.parameters? f g
    Binding.parameters f g
    if place.resultTypes then Annotation.colon? f g
  ensure !(← onNewLine)
  mark "=>"
  pure marked.isSome

/-- `yield` with its value, if it has one. -/
def yielded (place : Place) : Read Unit := do
  word "yield"
  if ← mark? "*" then
    let _ ← g.item place
  else if !(← onNewLine) then
    match ← peek with
    | .finish => pure ()
    | .word "in" false | .word "of" false => pure ()
    | .mark m =>
      if !([")", "]", "\x7d", ",", ";", ":"].contains m) then
        let _ ← g.item place
    | _ =>
      let _ ← g.item place

/-- Whether `yield` is an operator here: in a generator, and where it could only be one since an
operand follows. -/
def atYield : Read Bool :=
  ahead do
    word "yield"
    if !(← read).yields then
      ensure !(← onNewLine)
      match ← peek with
      | .word _ _ | .text _ | .numeral _ => pure ()
      | _ => refuse

/-- An expression without commas at its top. -/
def assignment (place : Place) : Read Operand := do
  if ← atYield then
    ensure (← read).yields
    yielded g place
    pure (Operand.plain .other)
  else
    let candidate := (← atName) || (← atMark "(") || (← atMark "<")
    let arrow ← if candidate then attempt (arrowHead f g place) else pure none
    match arrow with
    | some isAsync =>
      within (.ofFunction isAsync false) do
        if ← atMark "\x7b" then g.block
        else
          let _ ← g.item place
      pure (Operand.plain .other)
    | none =>
      let operand ← chained f g place
      if ← mark? "?" then
        let _ ← operand.settled
        branches g place
        pure (Operand.plain .other)
      else
        match ← Operator.assignment? with
        | some "=" =>
          ensure operand.target
          let _ ← g.item place
          pure { value := .other, assigned := true }
        | some _ =>
          ensure operand.reference
          let _ ← g.item place
          pure (Operand.plain .other)
        | none => pure operand

end StyleGraph.Script.Formula
