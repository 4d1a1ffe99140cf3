import StyleGraph.Script.Syntax
import StyleGraph.Static.Api

/-!
# Evaluating expressions

Expressions with a value that their text alone determines. A value that depends on an unresolved
name is unresolved too, where the language lets it pass.
-/

set_option autoImplicit false

namespace StyleGraph.Static.Eval

open Script (Expression Part Property Key Item Pattern Declarator)

/-- The member of a value. -/
def memberOf (object : Value) (key : String) : Eval Value :=
  match object with
  | .unresolved origin => pure (.unresolved origin)
  | .object entries =>
    match Entries.get? entries key with
    | some value => pure value
    | none => fail (.unknownMember key)
  | _ => fail (.memberOfValue key)

/-- The value of a name. -/
def lookup (name : String) : Eval Value := do
  match (← get).bindings.get? name with
  | some value => pure value
  | none => fail (.unboundName name)

mutual

/-- The value of an expression, for a binding if it gets one. -/
def eval (naming : Naming) (binding : Option String) : Expression → Eval Value
  | .text value => pure (.text value)
  | .number value => pure (.number value)
  | .null => pure .undefined
  | .name ident => if ident = "undefined" then pure .undefined else lookup ident
  | .negate operand => do
    match ← eval naming none operand with
    | .number value => pure (.number value.negate)
    | _ => fail .negatedValue
  | .template head parts => evalParts naming head parts
  | .object properties => do pure (.object (← evalProperties naming [] properties))
  | .array items => do pure (.array (← evalItems naming .irregularItem items))
  | .member object key => do memberOf (← eval naming none object) key
  | .index object key => do
    let object ← eval naming none object
    match (← eval naming none key).asText? with
    | some key => memberOf object key
    | none => fail .memberKey
  | .call (.name callee) arguments => do
    match (← get).bindings.get? callee with
    | some (.unresolved origin) => pure (.unresolved origin)
    | _ =>
      let arguments ← evalItems naming .spreadArgument arguments
      match Api.ofName? callee with
      | some api => callApi naming binding api arguments
      | none => fail (.unknownFunction callee)
  | .call _ _ => fail .indirectCall
  | .group inner => eval naming binding inner
  | .other => fail .unsupportedExpression

/-- The text of a template after the text so far. An unresolved part makes it unresolved. -/
def evalParts (naming : Naming) (text : String) : List Part → Eval Value
  | [] => pure (.text text)
  | .mk value following :: rest => do
    match ← eval naming none value with
    | .unresolved origin => pure (.unresolved origin)
    | value =>
      match value.asText? with
      | some part => evalParts naming (text ++ part ++ following) rest
      | none => fail .templatePart

/-- The entries of an object after those so far. -/
def evalProperties (naming : Naming) (entries : Entries) : List Property → Eval Entries
  | [] => pure entries
  | .keyed key value :: rest => do
    let key ← evalKey naming key
    let value ← eval naming none value
    evalProperties naming (entries.insert key value) rest
  | .spread value :: rest => do
    match ← eval naming none value with
    | .object more => evalProperties naming (entries.extend more) rest
    | _ => fail .spreadValue

/-- The text of a property key. -/
def evalKey (naming : Naming) : Key → Eval String
  | .named name => pure name
  | .computed value => do
    match (← eval naming none value).asText? with
    | some key => pure key
    | none => fail .propertyKey

/-- The values of items, none of which may be irregular. -/
def evalItems (naming : Naming) (irregular : Fault) : List Item → Eval (List Value)
  | [] => pure []
  | .single value :: rest => do
    let value ← eval naming none value
    let more ← evalItems naming irregular rest
    pure (value :: more)
  | .irregular :: _ => fail irregular

end

/-- Binds names to the items of a list; names without an item are undefined. -/
def bindItems : List String → List Value → Eval Unit
  | [], _ => pure ()
  | name :: names, [] => do
    bindName name .undefined
    bindItems names []
  | name :: names, item :: items => do
    bindName name item
    bindItems names items

/-- The value of a variable, which is undefined when none is given. -/
def initial (naming : Naming) (binding : Option String) : Option Expression → Eval Value
  | some value => eval naming binding value
  | none => pure .undefined

/-- Binds what a variable declaration binds. A pattern in braces binds nothing, and its value is
not looked at. -/
def declare (naming : Naming) (declarator : Declarator) : Eval Unit := do
  match declarator.target with
  | .name ident =>
    let value ← initial naming (some ident) declarator.value
    bindName ident value
  | .list items =>
    let names := Pattern.namesOfList items
    let value ← initial naming names.head? declarator.value
    match value with
    | .array items => bindItems names items
    | _ => bindItems names []
  | .other => pure ()

end StyleGraph.Static.Eval
