import StyleGraph.Script.Reader
import StyleGraph.Static.Evaluator

/-!
# CSS-in-TS modules

A module is evaluated statement by statement, in an environment that gives the exports of some of
the modules that it imports. All other names that it imports are unresolved.
-/

set_option autoImplicit false

namespace StyleGraph.Static

open Script (Statement ImportName ExportName Declarator Flavor)

/-- The exports of imported modules, by the specifiers that import them. -/
abbrev Environment := List (String × Entries)

/-- The exports of the module that a specifier imports. -/
def Environment.exports? (environment : Environment) (specifier : String) : Option Entries :=
  (environment.find? fun entry => entry.1 = specifier).map Prod.snd

/-- Whether a specifier imports the style functions themselves. -/
def isStyleLibrary (specifier : String) : Bool :=
  Text.startsWith "@vanilla-extract/".toList specifier.toList

/-- What a name of an import list is bound to. -/
def importedValue (source : String) (exports : Option Entries) (name : ImportName) :
    String × Value :=
  let (bound, value) :=
    match name with
    | .default bound => (bound, exports.bind (·.get? "default"))
    | .all bound => (bound, exports.map .object)
    | .named exported bound => (bound, exports.bind (·.get? exported))
  (bound, value.getD (.unresolved (bound ++ " from '" ++ source ++ "'")))

/-- Exports so far: those whose values are known, and pairs of a binding and the name under which it
is exported once all statements were evaluated. -/
structure Exported where
  known : Entries := []
  pending : List ExportName := []
  deriving Inhabited

namespace Exported

/-- Adds the bindings of variable declarations. -/
def addVariables (exported : Exported) (declarators : List Declarator) : Exported :=
  let names := declarators.flatMap fun d => d.target.names
  { exported with pending := exported.pending ++ names.map fun name => ⟨name, name⟩ }

/-- Adds a list of names, which come from another module if a source is given. -/
def addNames (exported : Exported) (environment : Environment) (names : List ExportName)
    (source : Option String) : Exported :=
  match source with
  | none => { exported with pending := exported.pending ++ names }
  | some source =>
    match environment.exports? source with
    | none => exported
    | some entries =>
      let add (known : Entries) (name : ExportName) : Entries :=
        match entries.get? name.inner with
        | some value => known.insert name.exported value
        | none => known
      { exported with known := names.foldl add exported.known }

/-- Adds all exports of another module, under one name if a name is given, else without its
default. -/
def addAll (exported : Exported) (environment : Environment) (name : Option String)
    (source : String) : Exported :=
  match environment.exports? source with
  | none => exported
  | some entries =>
    match name with
    | some name => { exported with known := exported.known.insert name (.object entries) }
    | none =>
      { exported with known := exported.known.extend (entries.filter fun e => e.1 != "default") }

/-- The exports once all bindings exist. A name without a binding is left out. -/
def settle (exported : Exported) (bindings : Entries) : Entries :=
  exported.pending.foldl (fun known name =>
    match bindings.get? name.inner with
    | some value => known.insert name.exported value
    | none => known) exported.known

end Exported

namespace Eval

/-- Binds the names of an import list. -/
def bindImports (source : String) (exports : Option Entries) (names : List ImportName) :
    Eval Unit :=
  names.forM fun name =>
    let (bound, value) := importedValue source exports name
    bindName bound value

/-- Evaluates a statement at the top level. Statements that bind and export nothing are passed
over. -/
def step (naming : Naming) (environment : Environment) (exported : Exported)
    (statement : Statement) : Eval Exported := do
  match statement with
  | .imports false names source =>
    if !isStyleLibrary source then
      bindImports source (environment.exports? source) names
    pure exported
  | .declared declarators =>
    declarators.forM (declare naming)
    pure exported
  | .exports false declarators names source =>
    declarators.forM (declare naming)
    pure ((exported.addVariables declarators).addNames environment names source)
  | .exportsAll false name source => pure (exported.addAll environment name source)
  | .exportsDefault (some value) =>
    let value ← eval naming (some "default") value
    pure { exported with known := exported.known.insert "default" value }
  | .expression value =>
    let _ ← eval naming none value
    pure exported
  | _ => pure exported

end Eval

/-- Why a module has no value. -/
inductive Failure
  /-- Its text is not a script. -/
  | unreadable
  | faulty (fault : Fault)
  deriving DecidableEq, Repr

/-- What a module evaluates to. -/
structure Evaluated where
  css : String
  exports : Entries
  deriving Inhabited

/-- Evaluates the statements of a module one after the other. -/
def runStatements (naming : Naming) (environment : Environment) (statements : List Statement) :
    Eval Exported :=
  statements.foldlM (Eval.step naming environment) {}

/-- What the statements of a module evaluate to. -/
def evaluateStatements (naming : Naming) (environment : Environment)
    (statements : List Statement) : Except Fault Evaluated :=
  match runStatements naming environment statements {} with
  | .ok (exported, state) =>
    .ok { css := state.output.render, exports := exported.settle state.bindings }
  | .error stop => .error stop.fault

/-- Evaluates a module with the given text at a path of a project. -/
def evaluateModule (source path project : String) (environment : Environment) :
    Except Failure Evaluated :=
  match Script.read? ((Flavor.ofPath? path).getD .plain) source with
  | none => .error .unreadable
  | some statements =>
    match evaluateStatements (.ofPath path project) environment statements with
    | .ok evaluated => .ok evaluated
    | .error fault => .error (.faulty fault)

/-- The state in which the evaluation of a module ends, whether it goes through or not. -/
def moduleState (source path project : String) (environment : Environment) : State :=
  match Script.read? ((Flavor.ofPath? path).getD .plain) source with
  | none => {}
  | some statements =>
    Eval.finalState (runStatements (.ofPath path project) environment statements) {}

end StyleGraph.Static
