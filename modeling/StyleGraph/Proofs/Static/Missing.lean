import Mathlib.Control.Monad.Basic
import StyleGraph.Proofs.Static.Keep
import StyleGraph.Proofs.Static.Steps
import StyleGraph.Proofs.Text.Cut

/-!
# Modules whose imports are missing

When modules that a module imports are missing, what comes from them is unresolved, and its
evaluation may fail although it went through before. `tolerates` decides from the text whether this
can happen: it takes the statements one by one, with the levels of the names bound so far. Names
that come from a missing module may be lost, and a variable gets the first form that its value
keeps. A module that passes is evaluated without these modules too (`evaluateModule_of_missing`).

The test is needed. A name that is negated is no value that can be passed over, and with it fails
the whole module (`evaluateModule_negated`).
-/

set_option autoImplicit false

namespace StyleGraph.Static

open Script (Expression Pattern Declarator Statement ImportName Flavor)

namespace Levels

/-- A name gets a form. -/
def set (levels : Levels) (name : String) (form : Form) : Levels :=
  fun other => if name = other then form else levels other

/-- Names get a form. -/
def setAll (levels : Levels) (names : List String) (form : Form) : Levels :=
  names.foldl (fun levels name => levels.set name form) levels

end Levels

/-- The first form that an expression keeps. -/
def formOf? (levels : Levels) (expression : Expression) : Option Form :=
  [.fixed, .loose, .rule, .rules, .parts, .any].find? fun form => keeps levels form expression

/-- The levels after a variable declaration, if its value keeps a form. -/
def declareLevels (levels : Levels) (declarator : Declarator) : Option Levels :=
  match declarator.target with
  | .name ident =>
    match declarator.value with
    | some value => (formOf? levels value).map (levels.set ident)
    | none => some (levels.set ident .fixed)
  | .list items =>
    if declarator.value.all (keeps levels .fixed) then
      some (levels.setAll (Pattern.namesOfList items) .fixed)
    else none
  | .other => some levels

/-- The name that an entry of an import list binds. -/
def boundName : ImportName → String
  | .default bound | .all bound | .named _ bound => bound

/-- The levels after a statement, if its expressions keep a form. -/
def stepLevels (missing : List String) (levels : Levels) : Statement → Option Levels
  | .imports false names source =>
    if isStyleLibrary source then some levels
    else some (levels.setAll (names.map boundName) (if source ∈ missing then .loose else .fixed))
  | .declared declarators => declarators.foldlM declareLevels levels
  | .exports false declarators _ _ => declarators.foldlM declareLevels levels
  | .exportsDefault (some value) => if keeps levels .any value then some levels else none
  | .expression value => if keeps levels .any value then some levels else none
  | _ => some levels

/-- Whether a module can do without some of the modules that it imports. -/
def tolerates (source path : String) (missing : List String) : Bool :=
  match Script.read? ((Flavor.ofPath? path).getD .plain) source with
  | some statements => (statements.foldlM (stepLevels missing) fun _ => .fixed).isSome
  | none => true

/-! ## Statements -/

variable {naming : Naming} {levels after : Levels}

/-- A name is bound to values that may differ as a form allows, and its level is that form from then
on. -/
theorem follows_bindName {name : String} {form : Form} {value other : Value}
    (replaces : At form value other) :
    Follows levels (levels.set name form) (fun _ _ => True) (Eval.bindName name value)
      (Eval.bindName name other) := by
  intro state state' _ final alike run
  cases run
  refine ⟨_, _, rfl, trivial, alike.names, alike.classNames, fun looked => ?_⟩
  simp only [Entries.get?_insert, Levels.set]
  split
  next => exact .some replaces
  next => exact alike.bindings looked

/-- The names of a pattern are bound to the same items in both. A name without an item is bound all
the same, so the levels of all names are known. -/
theorem follows_bindItems {names : List String} {items : List Value} :
    Follows levels (levels.setAll names .fixed) (fun _ _ => True) (Eval.bindItems names items)
      (Eval.bindItems names items) := by
  induction names generalizing levels items with
  | nil =>
    rw [Eval.bindItems]
    exact .pure trivial
  | cons name names ih =>
    cases items with
    | nil =>
      rw [Eval.bindItems]
      exact (follows_bindName .same).bind fun _ _ _ => ih
    | cons item items =>
      rw [Eval.bindItems]
      exact (follows_bindName .same).bind fun _ _ _ => ih

/-- A declaration sets the levels of the names that it binds, to the first form that its value
keeps. -/
theorem follows_declare {declarator : Declarator}
    (allowed : declareLevels levels declarator = some after) :
    Follows levels after (fun _ _ => True) (Eval.declare naming declarator)
      (Eval.declare naming declarator) := by
  obtain ⟨target, value⟩ := declarator
  cases target with
  | name ident =>
    cases value with
    | none =>
      cases allowed
      exact follows_bindName .same
    | some value =>
      obtain ⟨form, found, rfl⟩ := Option.map_eq_some_iff.mp allowed
      have kept : keeps levels form value = true := by simpa using List.find?_some found
      exact (follows_eval value (some ident) form kept).bind fun _ _ here => follows_bindName here
  | list items =>
    simp only [declareLevels] at allowed
    split at allowed
    next kept =>
      cases allowed
      have same : Follows levels levels Eq
          (Eval.initial naming (Pattern.namesOfList items).head? value)
          (Eval.initial naming (Pattern.namesOfList items).head? value) := by
        cases value with
        | none => exact .pure rfl
        | some value => exact (follows_eval value _ .fixed kept).of_fixed
      refine same.bind_same fun list => ?_
      split
      next => exact follows_bindItems
      next => exact follows_bindItems
    next => cases allowed
  | other =>
    cases allowed
    exact .pure trivial

/-- Declarations one after the other, with the levels that the earlier ones leave. -/
theorem follows_declareAll {declarators : List Declarator}
    (allowed : declarators.foldlM declareLevels levels = some after) :
    Follows levels after (fun _ _ => True) (declarators.forM (Eval.declare naming))
      (declarators.forM (Eval.declare naming)) := by
  induction declarators generalizing levels with
  | nil =>
    cases allowed
    exact .pure trivial
  | cons declarator declarators ih =>
    rw [List.foldlM_cons] at allowed
    obtain ⟨between, here, rest⟩ := Option.bind_eq_some_iff.mp allowed
    exact (follows_declare here).bind fun _ _ _ => ih rest

/-- What is imported from a module may be lost with the module. -/
theorem at_importedValue {source : String} {exports others : Option Entries} {form : Form}
    (gone : others = exports ∨ form.isOpen = true ∧ others = none) (name : ImportName) :
    At form (importedValue source exports name).2 (importedValue source others name).2 := by
  rcases gone with rfl | ⟨isOpen, rfl⟩
  · exact .same
  · cases name <;> exact .lost isOpen

/-- The names of an import are bound to the same values in both, or are unresolved in the second one
when the module is missing. -/
theorem follows_bindImports {source : String} {exports others : Option Entries} {form : Form}
    (gone : others = exports ∨ form.isOpen = true ∧ others = none) {names : List ImportName} :
    Follows levels (levels.setAll (names.map boundName) form) (fun _ _ => True)
      (Eval.bindImports source exports names) (Eval.bindImports source others names) := by
  unfold Eval.bindImports
  induction names generalizing levels with
  | nil => exact .pure trivial
  | cons name names ih =>
    have bound : ∀ exports, (importedValue source exports name).1 = boundName name := by
      intro exports
      cases name <;> rfl
    have here : Follows levels (levels.set (boundName name) form) (fun _ _ => True)
        (Eval.bindName (importedValue source exports name).1 (importedValue source exports name).2)
        (Eval.bindName (importedValue source others name).1
          (importedValue source others name).2) := by
      rw [bound, bound]
      exact follows_bindName (at_importedValue gone name)
    exact here.bind fun _ _ _ => ih

/-- An environment in which modules may be missing. -/
def Environment.Without (missing : List String) (others environment : Environment) : Prop :=
  ∀ specifier, others.exports? specifier = environment.exports? specifier ∨
    specifier ∈ missing ∧ others.exports? specifier = none

variable {missing : List String} {environment others : Environment}

/-- **A statement that may do without a module** is followed. Its exports need not be the same, and
nothing is said about them. -/
theorem follows_step (without : others.Without missing environment) {statement : Statement}
    (allowed : stepLevels missing levels statement = some after) (exported other : Exported) :
    Follows levels after (fun _ _ => True) (Eval.step naming environment exported statement)
      (Eval.step naming others other statement) := by
  cases statement with
  | imports typesOnly names source =>
    cases typesOnly with
    | true =>
      cases allowed
      exact .pure trivial
    | false =>
      simp only [stepLevels] at allowed
      unfold Eval.step
      dsimp only
      cases library : isStyleLibrary source with
      | true =>
        rw [if_pos library] at allowed
        cases allowed
        exact .pure trivial
      | false =>
        rw [library, if_neg Bool.false_ne_true] at allowed
        cases allowed
        have gone : others.exports? source = environment.exports? source ∨
            (if source ∈ missing then Form.loose else .fixed).isOpen = true ∧
              others.exports? source = none :=
          (without source).imp_right fun ⟨mem, absent⟩ => ⟨by rw [if_pos mem]; rfl, absent⟩
        exact (follows_bindImports gone).bind fun _ _ _ => .pure trivial
  | declared declarators => exact (follows_declareAll allowed).bind fun _ _ _ => .pure trivial
  | exports typesOnly declarators names source =>
    cases typesOnly with
    | true =>
      cases allowed
      exact .pure trivial
    | false => exact (follows_declareAll allowed).bind fun _ _ _ => .pure trivial
  | exportsAll typesOnly name source =>
    cases allowed
    cases typesOnly <;> exact .pure trivial
  | exportsDefault value =>
    cases value with
    | none =>
      cases allowed
      exact .pure trivial
    | some value =>
      simp only [stepLevels] at allowed
      split at allowed
      next kept =>
        cases allowed
        exact (follows_eval value _ .any kept).bind fun _ _ _ => .pure trivial
      next => cases allowed
  | expression value =>
    simp only [stepLevels] at allowed
    split at allowed
    next kept =>
      cases allowed
      exact (follows_eval value _ .any kept).bind fun _ _ _ => .pure trivial
    next => cases allowed
  | other =>
    cases allowed
    exact .pure trivial

/-- A run over statements follows the run in which modules are not missing. The levels go along with
the statements, so that each is allowed what those before it left. -/
theorem follows_statements (without : others.Without missing environment)
    {statements : List Statement}
    (allowed : statements.foldlM (stepLevels missing) levels = some after)
    (exported other : Exported) :
    Follows levels after (fun _ _ => True)
      (statements.foldlM (Eval.step naming environment) exported)
      (statements.foldlM (Eval.step naming others) other) := by
  induction statements generalizing levels exported other with
  | nil =>
    cases allowed
    exact .pure trivial
  | cons statement statements ih =>
    rw [List.foldlM_cons] at allowed
    obtain ⟨between, here, rest⟩ := Option.bind_eq_some_iff.mp allowed
    rw [List.foldlM_cons, List.foldlM_cons]
    exact (follows_step without here exported other).bind fun more moreOther _ =>
      ih rest more moreOther

/-! ## Modules -/

/-- **A module that uses what it imports where a value may be passed over** is evaluated when
modules that it imports are missing, if it is evaluated with them. -/
theorem evaluateModule_of_missing {source path project : String}
    (tolerated : tolerates source path missing = true)
    (without : others.Without missing environment) {evaluated : Evaluated}
    (evaluates : evaluateModule source path project environment = .ok evaluated) :
    ∃ other, evaluateModule source path project others = .ok other := by
  obtain ⟨statements, exported, read, run, -⟩ := evaluateModule_eq_ok_iff.mp evaluates
  simp only [tolerates, read] at tolerated
  obtain ⟨after, allowed⟩ := Option.isSome_iff_exists.mp tolerated
  have initial : Alike (fun _ => .fixed) {} {} := ⟨rfl, rfl, fun _ => .none⟩
  obtain ⟨exported', final', run', -⟩ :=
    follows_statements without allowed {} {} {} {} exported _ initial run
  have ends := moduleState_of_run read run'
  exact ⟨_, evaluateModule_eq_ok_iff.mpr ⟨statements, exported', read, ends ▸ run', rfl⟩⟩

/-- The exports of a theme with one number. -/
def gapEnvironment : Environment :=
  [("./theme.css", [("gap", .number ⟨false, Number.Binary64.ofNat 4⟩)])]

/-- The environment without its only module is empty. -/
theorem without_gapEnvironment : Environment.Without ["./theme.css"] [] gapEnvironment := by
  intro specifier
  by_cases same : "./theme.css" = specifier
  · exact .inr ⟨List.mem_singleton.mpr same.symm, rfl⟩
  · refine .inl ?_
    simp [Environment.exports?, gapEnvironment, same]

/-- A module that uses the number of the theme as a value and in a template. -/
def gapSource : String :=
  "import \x7bgap\x7d from './theme.css';const around=`0 $\x7bgap\x7dpx`;" ++
    "globalStyle('html',\x7bmargin:gap,padding:around\x7d)"

/-- With the theme the margin is written; without it only the declarations that use it are passed
over. -/
theorem evaluateModule_of_missing_gap :
    (evaluateModule gapSource "/app/a.css.ts" "/app" gapEnvironment).map Evaluated.css =
        .ok "html \x7b\n  margin: 4px;\n  padding: 0 4px;\n\x7d\n" ∧
      tolerates gapSource "/app/a.css.ts" ["./theme.css"] = true ∧
      ∃ other, evaluateModule gapSource "/app/a.css.ts" "/app" [] = .ok other := by
  have chars : gapSource.toList = _ := Text.toList_ofList_append _ _
  have found : (evaluateModule gapSource "/app/a.css.ts" "/app" gapEnvironment).map
      Evaluated.css =
        .ok "html \x7b\n  margin: 4px;\n  padding: 0 4px;\n\x7d\n" := by
    rewrite [evaluateModule, Script.read?, chars]
    decide +kernel
  have tolerated : tolerates gapSource "/app/a.css.ts" ["./theme.css"] = true := by
    rewrite [tolerates, Script.read?, chars]
    decide +kernel
  cases evaluates : evaluateModule gapSource "/app/a.css.ts" "/app" gapEnvironment with
  | error _ => rw [evaluates] at found; cases found
  | ok evaluated =>
    exact ⟨evaluates ▸ found, tolerated,
      evaluateModule_of_missing tolerated without_gapEnvironment evaluates⟩

/-- A module that negates the number of the theme. -/
def negatedSource : String :=
  "import \x7bgap\x7d from './theme.css';globalStyle('html',\x7bmargin:-gap,padding:4\x7d)"

/-- **A module that negates what it imports** is not evaluated when the import is missing. -/
theorem evaluateModule_negated :
    Environment.Without ["./theme.css"] [] gapEnvironment ∧
      (evaluateModule negatedSource "/app/a.css.ts" "/app" gapEnvironment).map Evaluated.css =
        .ok "html \x7b\n  margin: -4px;\n  padding: 4px;\n\x7d\n" ∧
      (evaluateModule negatedSource "/app/a.css.ts" "/app" []).map Evaluated.css =
        .error (.faulty .negatedValue) := by
  refine ⟨without_gapEnvironment, ?_⟩
  have chars : negatedSource.toList = _ := String.toList_ofList
  rewrite [evaluateModule, evaluateModule, Script.read?, chars]
  decide +kernel

end StyleGraph.Static
