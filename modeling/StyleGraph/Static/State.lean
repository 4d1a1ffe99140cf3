import StyleGraph.Static.Naming
import StyleGraph.Static.Output
import StyleGraph.Static.Reference

/-!
# The state of an evaluation

The names bound so far, the names generated so far, and what was recorded.
-/

set_option autoImplicit false

namespace StyleGraph.Static

/-- What changes while a module is evaluated. -/
structure State where
  /-- The generated names, first to last. -/
  names : List String := []
  bindings : Entries := []
  /-- Those of the generated names that are classes, first to last. -/
  classNames : List String := []
  output : Output := {}
  deriving Inhabited

/-- The running number of the next generated name. -/
def State.ordinal (state : State) : Nat := state.names.length

/-- Where an evaluation stops that does not go through. The state outlives the fault: what was done
before it stays done. -/
structure Stop where
  fault : Fault
  state : State

/-- A step of an evaluation. -/
abbrev Eval := StateT State (Except Stop)

namespace Eval

/-- The state in which a step ends, whether it goes through or not. -/
def finalState {α : Type} (step : Eval α) (state : State) : State :=
  match step state with
  | .ok (_, final) => final
  | .error stop => stop.state

/-- Stops with a fault. -/
def fail {α : Type} (fault : Fault) : Eval α := fun state => .error ⟨fault, state⟩

/-- A result that does not touch the state. -/
def lift {α : Type} : Except Fault α → Eval α
  | .ok value => pure value
  | .error fault => fail fault

/-- A fresh name, which is listed among the generated ones. -/
def mint (naming : Naming) (binding : Option String) : Eval String := do
  let state ← get
  let name := naming.name state.ordinal binding
  set { state with names := state.names ++ [name] }
  pure name

/-- A fresh class name. -/
def mintClass (naming : Naming) (binding : Option String) : Eval String := do
  let name ← mint naming binding
  modify fun state => { state with classNames := state.classNames ++ [name] }
  pure name

/-- Binds a name. -/
def bindName (name : String) (value : Value) : Eval Unit :=
  modify fun state => { state with bindings := state.bindings.insert name value }

/-- Records a text. -/
def recordText (text : String) : Eval Unit :=
  modify fun state => { state with output := state.output.addText text }

/-- Records a rule. -/
def recordRule (selector : String) (conditions : List String) (rule : Entries) : Eval Unit := do
  let declarations ← lift (declarations rule)
  modify fun state => { state with output := state.output.addBlock ⟨conditions, selector, declarations⟩ }

/-- A selector with the dots before the class names of this module. -/
def resolveSelector (selector : String) : Eval String := do
  pure (dotNames (← get).classNames selector)

/-- The fault of an entry that nests rules and whose value is no object, if it is one. -/
def flatEntry (key : String) : Except Fault Unit :=
  match KeyRole.of key with
  | .pseudo | .nested => .error (.ruleNotObject key)
  | .selectors => .error .selectorsNotObject
  | .conditions _ => .error (.conditionsNotObject key)
  | .customProperties | .declaration => .ok ()

mutual

/-- Records the nested rules of a style object, each before the rules nested in it. -/
def recordNested (selector : String) (conditions : List String) :
    List (String × Value) → Eval Unit
  | [] => pure ()
  | (key, value) :: rest => do
    recordEntry selector conditions key value
    recordNested selector conditions rest

/-- Records the rules of one entry of a style object. -/
def recordEntry (selector : String) (conditions : List String) (key : String) : Value → Eval Unit
  | .object inner =>
    match KeyRole.of key with
    | .pseudo => do
      recordRule (selector ++ key) conditions inner
      recordNested (selector ++ key) conditions inner
    | .selectors => recordSelectors selector conditions inner
    | .nested => do
      let resolved := fillParent (← resolveSelector key) selector
      recordRule resolved conditions inner
      recordNested resolved conditions inner
    | .conditions kind => recordConditions selector conditions kind inner
    | .customProperties | .declaration => pure ()
  | _ => lift (flatEntry key)

/-- Records rules that are given by their selectors. -/
def recordSelectors (selector : String) (conditions : List String) :
    List (String × Value) → Eval Unit
  | [] => pure ()
  | (key, .object inner) :: rest => do
    let resolved := fillParent (← resolveSelector key) selector
    recordRule resolved conditions inner
    recordNested resolved conditions inner
    recordSelectors selector conditions rest
  | (key, _) :: _ => fail (.ruleNotObject key)

/-- Records rules that are given by their conditions. -/
def recordConditions (selector : String) (conditions : List String) (kind : String) :
    List (String × Value) → Eval Unit
  | [] => pure ()
  | (query, .object inner) :: rest => do
    let within := conditions ++ ["@" ++ kind ++ " " ++ query]
    recordRule selector within inner
    recordNested selector within inner
    recordConditions selector conditions kind rest
  | (query, _) :: _ => fail (.ruleNotObject ("@" ++ kind ++ " " ++ query))

end

/-- Records a style object and all rules nested in it. -/
def recordStyle (selector : String) (conditions : List String) (rule : Entries) : Eval Unit := do
  recordRule selector conditions rule
  recordNested selector conditions rule

end Eval

end StyleGraph.Static
