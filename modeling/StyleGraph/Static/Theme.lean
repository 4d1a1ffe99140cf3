import StyleGraph.Static.State

/-!
# Themes

A contract is a tree with a variable at every leaf; a theme gives each variable of a contract the
value at the same place of a tree of tokens.
-/

set_option autoImplicit false

namespace StyleGraph.Static.Theme

open Eval

/-- The binding of a part of a contract. -/
def partName (binding : Option String) (key : String) : String :=
  match binding with
  | some binding => binding ++ "_" ++ key
  | none => key

mutual

/-- The contract of a tree of tokens: fresh variables in place of its leaves. -/
def contract (naming : Naming) (binding : Option String) : Value → Eval Value
  | .object entries => do pure (.object (← contractEntries naming binding entries))
  | .array _ => fail .tokenList
  | .text _ | .number _ | .classes _ | .undefined | .unresolved _ => do
    pure (.text ("var(--" ++ (← mint naming binding) ++ ")"))

/-- The contracts of the entries of a tree. -/
def contractEntries (naming : Naming) (binding : Option String) : Entries → Eval Entries
  | [] => pure []
  | (key, value) :: rest => do
    let part ← contract naming (some (partName binding key)) value
    let more ← contractEntries naming binding rest
    pure ((key, part) :: more)

end

mutual

/-- The variables of a contract with the values of a tree of tokens, added to those given. Nothing
is assigned where one side is unresolved. -/
def assign (contract tokens : Value) (given : Entries) : Except Fault Entries :=
  match contract, tokens with
  | .object parts, .object tokens => assignEntries parts tokens given
  | .text unset, value => .ok (given.insert unset value)
  | .unresolved _, _ => .ok given
  | _, .unresolved _ => .ok given
  | _, _ => .error .tokenMismatch

/-- The variables of the entries of a contract. -/
def assignEntries (parts tokens given : Entries) : Except Fault Entries :=
  match parts with
  | [] => .ok given
  | (key, part) :: rest =>
    match tokens.get? key with
    | none => .error (.missingToken key)
    | some value =>
      match assign part value given with
      | .ok given => assignEntries rest tokens given
      | .error fault => .error fault

end

/-- Records the rule that gives variables their values. -/
def recordAssigned (selector : String) (assigned : Entries) : Eval Unit :=
  recordStyle selector [] [("vars", .object assigned)]

/-- A fresh class whose rule gives the variables of a contract their values. -/
def themeClass (naming : Naming) (binding : Option String) (contract tokens : Value) :
    Eval String := do
  let assigned ← lift (assign contract tokens [])
  let name ← mintClass naming binding
  recordAssigned ("." ++ name) assigned
  pure name

end StyleGraph.Static.Theme
