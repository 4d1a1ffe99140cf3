import StyleGraph.Proofs.Static.Contract
import StyleGraph.Static.Module

/-!
# What steps of an evaluation do

A step of an evaluation changes its state by acts of four kinds: it generates a name, makes a
generated name a class, binds a name, or records a block or a text (`Act`). A step that stops with a
fault has done so as well, up to the fault. This is proved once of all that the style functions are
put together from (`acts_callApi`). An invariant of the names or of the output is then an induction
over acts, whatever the evaluation is made of.
-/

set_option autoImplicit false

namespace StyleGraph.Static

/-! ## Runs that go through -/

/-- The parts of a run that goes through. -/
theorem run_bind_eq_ok {α β : Type} {step : Eval α} {next : α → Eval β} {result : β}
    {state final : State} (done : (step >>= next) state = .ok (result, final)) :
    ∃ value middle, step state = .ok (value, middle) ∧ next value middle = .ok (result, final) := by
  obtain ⟨⟨value, middle⟩, here, rest⟩ := bind_eq_ok_iff.mp done
  exact ⟨value, middle, here, rest⟩

/-- A result that was lifted leaves the state as it is. -/
theorem lift_eq_ok {α : Type} {result : Except Fault α} {value : α} {state final : State}
    (done : Eval.lift result state = .ok (value, final)) : result = .ok value ∧ final = state := by
  cases result with
  | error fault => cases done
  | ok found => cases done; exact ⟨rfl, rfl⟩

/-- An argument is asked for its text without a change of the state. -/
theorem argumentText_eq {argument : Option Value} {fault : Fault} {text : String}
    {state final : State} (done : Eval.argumentText argument fault state = .ok (text, final)) :
    final = state := by
  unfold Eval.argumentText at done
  cases found : argument.bind Value.asText? with
  | some spelled =>
    rw [found] at done
    cases done
    rfl
  | none =>
    rw [found] at done
    cases done

/-- **A module that is evaluated** is a script whose statements all go through, one after the other.
What it evaluates to is read off the state in which they end. -/
theorem evaluateModule_eq_ok_iff {source path project : String} {environment : Environment}
    {evaluated : Evaluated} :
    evaluateModule source path project environment = .ok evaluated ↔
      ∃ statements exported,
        Script.read? ((Script.Flavor.ofPath? path).getD .plain) source = some statements ∧
        runStatements (.ofPath path project) environment statements {} =
          .ok (exported, moduleState source path project environment) ∧
        evaluated =
          { css := (moduleState source path project environment).output.render
            exports := exported.settle
              (moduleState source path project environment).bindings } := by
  unfold evaluateModule moduleState evaluateStatements Eval.finalState
  cases Script.read? ((Script.Flavor.ofPath? path).getD .plain) source with
  | none => exact ⟨nofun, nofun⟩
  | some statements =>
    dsimp only
    cases run : runStatements (.ofPath path project) environment statements {} with
    | error stop =>
      refine ⟨nofun, ?_⟩
      rintro ⟨_, _, ⟨⟩, again, -⟩
      cases run.symm.trans again
    | ok result =>
      obtain ⟨exported, final⟩ := result
      constructor
      · rintro ⟨⟩
        exact ⟨statements, exported, rfl, run, rfl⟩
      · rintro ⟨_, _, ⟨⟩, again, rfl⟩
        cases run.symm.trans again
        rfl

/-- Where the statements of a module go through, the evaluation ends in their last state. -/
theorem moduleState_of_run {source path project : String} {environment : Environment}
    {statements : List Script.Statement} {exported : Exported} {final : State}
    (read : Script.read? ((Script.Flavor.ofPath? path).getD .plain) source = some statements)
    (run : runStatements (.ofPath path project) environment statements {} =
      .ok (exported, final)) :
    moduleState source path project environment = final := by
  simp only [moduleState, read, Eval.finalState, run]

/-! ## Acts -/

/-- What is recorded at once: a block, or a text that is written as it is. -/
inductive Emitted
  | block (rule : Block)
  | text (written : String)
  deriving DecidableEq, Repr

/-- Records a block or a text. -/
def Output.record (output : Output) : Emitted → Output
  | .block block => output.addBlock block
  | .text text => output.addText text

/-- What a step of an evaluation does to its state at once. -/
inductive Act
  /-- A name is generated for a binding. -/
  | minted (binding : Option String)
  /-- A generated name is a class. -/
  | classed (name : String)
  | bound (name : String) (value : Value)
  | recorded (item : Emitted)

namespace Act

/-- The state after an act. -/
def apply (naming : Naming) (state : State) : Act → State
  | .minted binding => state.named naming [binding]
  | .classed name => { state with classNames := state.classNames ++ [name] }
  | .bound name value => { state with bindings := state.bindings.insert name value }
  | .recorded item => { state with output := state.output.record item }

/-- What a name is generated for, if one is. -/
def minted? : Act → Option (Option String)
  | .minted binding => some binding
  | .classed _ | .bound _ _ | .recorded _ => none

/-- What is recorded, if something is. -/
def recorded? : Act → Option Emitted
  | .recorded item => some item
  | .minted _ | .classed _ | .bound _ _ => none

/-- The state after some acts, one after the other. -/
def applyAll (naming : Naming) (state : State) (acts : List Act) : State :=
  acts.foldl (apply naming) state

/-- Acts that follow each other are applied to what the first ones leave behind. -/
theorem applyAll_append (naming : Naming) (state : State) (acts more : List Act) :
    applyAll naming state (acts ++ more) = applyAll naming (applyAll naming state acts) more :=
  List.foldl_append

/-- **Names are only added.** Those that acts add are made for the bindings of these acts, in their
order, and have the running numbers that come next. -/
theorem names_applyAll (naming : Naming) (state : State) (acts : List Act) :
    (applyAll naming state acts).names =
      state.names ++ naming.numbered state.ordinal (acts.filterMap minted?) := by
  induction acts generalizing state with
  | nil => exact (List.append_nil _).symm
  | cons act acts ih =>
    rw [applyAll, List.foldl_cons, ← applyAll, ih]
    cases act with
    | minted binding =>
      have listed : (minted binding :: acts).filterMap minted? =
          [binding] ++ acts.filterMap minted? := rfl
      rw [listed, Naming.numbered_append, ← List.append_assoc, apply, State.ordinal_named]
      rfl
    | classed name => rfl
    | bound name value => rfl
    | recorded item => rfl

/-- **The output is only added to**, by what the acts record, in their order. -/
theorem output_applyAll (naming : Naming) (state : State) (acts : List Act) :
    (applyAll naming state acts).output =
      (acts.filterMap recorded?).foldl Output.record state.output := by
  induction acts generalizing state with
  | nil => rfl
  | cons act acts ih =>
    rw [applyAll, List.foldl_cons, ← applyAll, ih]
    cases act <;> rfl

end Act

/-! ## Steps -/

/-- A step does nothing but acts, also if it stops with a fault. -/
def Acts (naming : Naming) {α : Type} (step : Eval α) : Prop :=
  ∀ state, ∃ acts, Eval.finalState step state = Act.applyAll naming state acts

/-- A step that goes through ends where it ends. -/
theorem finalState_of_ok {α : Type} {step : Eval α} {state final : State} {value : α}
    (done : step state = .ok (value, final)) : Eval.finalState step state = final := by
  rw [Eval.finalState, done]

/-- A step that stops ends in the state that its stop carries. -/
theorem finalState_of_error {α : Type} {step : Eval α} {state : State} {stop : Stop}
    (failed : step state = .error stop) : Eval.finalState step state = stop.state := by
  rw [Eval.finalState, failed]

/-- The stop of a step is that of the steps it is put together from. -/
theorem bind_of_error {α β : Type} {step : Eval α} {next : α → Eval β} {state : State}
    {stop : Stop} (failed : step state = .error stop) : (step >>= next) state = .error stop := by
  show (step state >>= fun result => next result.1 result.2) = _
  rw [failed]
  rfl

/-- After a step that goes through, the next one starts where it ended. -/
theorem bind_of_ok {α β : Type} {step : Eval α} {next : α → Eval β} {state middle : State}
    {value : α} (done : step state = .ok (value, middle)) :
    (step >>= next) state = next value middle := by
  show (step state >>= fun result => next result.1 result.2) = _
  rw [done]
  rfl

namespace Acts

variable {naming : Naming} {α β : Type}

/-- A step that leaves the state as it is does nothing. -/
theorem still {step : Eval α} (same : ∀ state, Eval.finalState step state = state) :
    Acts naming step := fun state => ⟨[], same state⟩

theorem pure (value : α) : Acts naming (Pure.pure value) := .still fun _ => rfl

theorem fail (fault : Fault) : Acts naming (Eval.fail fault : Eval α) := .still fun _ => rfl

/-- A result does nothing to the state, whether it is a value or a fault. -/
theorem lift (result : Except Fault α) : Acts naming (Eval.lift result) := by
  cases result with
  | error fault => exact .fail fault
  | ok value => exact .pure value

/-- One step after the other. After a step that stops with a fault nothing more is done. The acts of
the second step are behind those of the first, also if it starts from nothing else but them. -/
theorem bind {step : Eval α} {next : α → Eval β} (first : Acts naming step)
    (rest : ∀ value, Acts naming (next value)) : Acts naming (step >>= next) := by
  intro state
  obtain ⟨acts, here⟩ := first state
  cases run : step state with
  | error stop =>
    rw [finalState_of_error run] at here
    exact ⟨acts, (finalState_of_error (bind_of_error run)).trans here⟩
  | ok result =>
    obtain ⟨value, middle⟩ := result
    rw [finalState_of_ok run] at here
    obtain ⟨more, there⟩ := rest value middle
    refine ⟨acts ++ more, ?_⟩
    rw [Act.applyAll_append, ← here, ← there, Eval.finalState, Eval.finalState, bind_of_ok run]

/-- Items one after the other, by induction on the list. Items behind a fault are not reached. -/
theorem forM {step : α → Eval PUnit} (each : ∀ item, Acts naming (step item)) (items : List α) :
    Acts naming (items.forM step) := by
  induction items with
  | nil => exact .pure _
  | cons item items ih => exact (each item).bind fun _ => ih

/-- Generating a name is one act. Here the name that is returned is the name that is listed. -/
theorem mint (binding : Option String) : Acts naming (Eval.mint naming binding) :=
  fun _ => ⟨[.minted binding], rfl⟩

/-- A class is a name that is generated and then listed as a class. -/
theorem mintClass (binding : Option String) : Acts naming (Eval.mintClass naming binding) :=
  fun state => ⟨[.minted binding, .classed (naming.name state.ordinal binding)], rfl⟩

/-- Text outside any rule is one act, which adds it to the output and no name. -/
theorem recordText (text : String) : Acts naming (Eval.recordText text) :=
  fun _ => ⟨[.recorded (.text text)], rfl⟩

/-- A selector is resolved with what the state says already. -/
theorem resolveSelector (selector : String) : Acts naming (Eval.resolveSelector selector) :=
  .still fun _ => rfl

/-- An argument has its text, or stops the call before it does anything. -/
theorem argumentText (argument : Option Value) (fault : Fault) :
    Acts naming (Eval.argumentText argument fault) := by
  unfold Eval.argumentText
  cases argument.bind Value.asText? with
  | none => exact .fail fault
  | some text => exact .pure text

end Acts

/-! ## Style objects -/

section StyleObjects

variable {naming : Naming}

/-- A rule is recorded once its declarations are known, so a fault in them leaves no block. -/
theorem acts_recordRule (selector : String) (conditions : List String) (rule : Entries) :
    Acts naming (Eval.recordRule selector conditions rule) :=
  (Acts.lift _).bind fun found => fun _ =>
    ⟨[.recorded (.block ⟨conditions, selector, found⟩)], rfl⟩

mutual

/-- Rules that are nested are recorded one by one. A fault in one of them stops the recording, and
leaves those before it recorded. -/
theorem acts_recordNested (selector : String) (conditions : List String) :
    ∀ rule, Acts naming (Eval.recordNested selector conditions rule)
  | [] => by
    rw [Eval.recordNested]
    exact .pure _
  | (key, value) :: rest => by
    rw [Eval.recordNested]
    exact (acts_recordEntry selector conditions key value).bind fun _ =>
      acts_recordNested selector conditions rest

/-- One entry of a style object. What it does depends on the role of its key, and an entry that is
no rule does nothing. -/
theorem acts_recordEntry (selector : String) (conditions : List String) (key : String) :
    ∀ value, Acts naming (Eval.recordEntry selector conditions key value)
  | .object inner => by
    rw [Eval.recordEntry]
    cases KeyRole.of key with
    | pseudo =>
      exact (acts_recordRule _ conditions inner).bind fun _ => acts_recordNested _ conditions inner
    | selectors => exact acts_recordSelectors selector conditions inner
    | nested =>
      refine (Acts.resolveSelector key).bind fun resolved => ?_
      exact (acts_recordRule _ conditions inner).bind fun _ => acts_recordNested _ conditions inner
    | conditions kind => exact acts_recordConditions selector conditions kind inner
    | customProperties => exact .pure _
    | declaration => exact .pure _
  | .text _ | .number _ | .classes _ | .array _ | .undefined | .unresolved _ => by
    simp only [Eval.recordEntry]
    exact .lift _

/-- Rules that are given by their selectors, each resolved with the class names so far. -/
theorem acts_recordSelectors (selector : String) (conditions : List String) :
    ∀ rules, Acts naming (Eval.recordSelectors selector conditions rules)
  | [] => by
    rw [Eval.recordSelectors]
    exact .pure _
  | (key, .object inner) :: rest => by
    rw [Eval.recordSelectors]
    refine (Acts.resolveSelector key).bind fun resolved => ?_
    exact (acts_recordRule _ conditions inner).bind fun _ =>
      (acts_recordNested _ conditions inner).bind fun _ =>
        acts_recordSelectors selector conditions rest
  | (key, .text _) :: rest | (key, .number _) :: rest | (key, .classes _) :: rest
  | (key, .array _) :: rest | (key, .undefined) :: rest | (key, .unresolved _) :: rest => by
    simp only [Eval.recordSelectors]
    exact .fail _

/-- Rules that are given by their conditions. The conditions change what is recorded, but not that
it is an act. -/
theorem acts_recordConditions (selector : String) (conditions : List String) (kind : String) :
    ∀ rules, Acts naming (Eval.recordConditions selector conditions kind rules)
  | [] => by
    rw [Eval.recordConditions]
    exact .pure _
  | (query, .object inner) :: rest => by
    rw [Eval.recordConditions]
    exact (acts_recordRule _ _ inner).bind fun _ => (acts_recordNested _ _ inner).bind fun _ =>
      acts_recordConditions selector conditions kind rest
  | (key, .text _) :: rest | (key, .number _) :: rest | (key, .classes _) :: rest
  | (key, .array _) :: rest | (key, .undefined) :: rest | (key, .unresolved _) :: rest => by
    simp only [Eval.recordConditions]
    exact .fail _

end

/-- A style object: its own rule first, then the rules nested in it. -/
theorem acts_recordStyle (selector : String) (conditions : List String) (rule : Entries) :
    Acts naming (Eval.recordStyle selector conditions rule) :=
  (acts_recordRule selector conditions rule).bind fun _ =>
    acts_recordNested selector conditions rule

end StyleObjects

/-! ## Calls -/

section Calls

variable {naming : Naming} {binding : Option String}

/-- A font face is one text, or a fault before anything is recorded. -/
theorem acts_recordFace (family : String) (face : Value) :
    Acts naming (Eval.recordFace family face) := by
  cases face with
  | object rule => exact (Acts.lift _).bind fun found => .recordText _
  | _ => exact .fail _

/-- A style generates its class first. So the class is generated also if a part of the style is at
fault. -/
theorem acts_style (rule : Value) : Acts naming (Eval.style naming binding rule) := by
  unfold Eval.style
  refine (Acts.mintClass binding).bind fun name => (Acts.lift _).bind fun parts => ?_
  exact (acts_recordStyle _ _ _).bind fun _ => .pure _

/-- Styles by their keys, each with a class of its own, up to the first fault. -/
theorem acts_variants (entries : Entries) : Acts naming (Eval.variants naming binding entries) := by
  induction entries with
  | nil => exact .pure _
  | cons entry rest ih =>
    rw [Eval.variants]
    exact (acts_style entry.2).bind fun made => ih.bind fun more => .pure _

mutual

/-- A contract generates a name at every leaf that it comes to. -/
theorem acts_contract : ∀ (tokens : Value) (binding : Option String),
    Acts naming (Theme.contract naming binding tokens)
  | .object entries, binding => by
    rw [Theme.contract]
    exact (acts_contractEntries entries binding).bind fun made => .pure _
  | .array _, _ => by
    rw [Theme.contract]
    exact .fail _
  | .text _, binding | .number _, binding | .classes _, binding | .undefined, binding
  | .unresolved _, binding => by
    simp only [Theme.contract]
    exact (Acts.mint binding).bind fun name => .pure _

/-- The entries of a tree of tokens, in their order. -/
theorem acts_contractEntries : ∀ (entries : List (String × Value)) (binding : Option String),
    Acts naming (Theme.contractEntries naming binding entries)
  | [], _ => by
    rw [Theme.contractEntries]
    exact .pure _
  | (key, value) :: rest, binding => by
    rw [Theme.contractEntries]
    exact (acts_contract value _).bind fun part =>
      (acts_contractEntries rest binding).bind fun more => .pure _

end

/-- The class of a theme is generated only if its tokens fit, and its rule is recorded behind it. -/
theorem acts_themeClass (contract tokens : Value) :
    Acts naming (Theme.themeClass naming binding contract tokens) := by
  unfold Theme.themeClass
  refine (Acts.lift _).bind fun assigned => (Acts.mintClass binding).bind fun name => ?_
  exact (acts_recordStyle _ _ _).bind fun _ => .pure _

/-- A theme with its contract. -/
theorem acts_theme (tokens : Value) : Acts naming (do
    let made ← Theme.contract naming binding tokens
    let name ← Theme.themeClass naming binding made tokens
    Pure.pure (Value.array [.classes name, made])) :=
  (acts_contract _ _).bind fun made => (acts_themeClass made _).bind fun _ => .pure _

/-- **A call of a style function does nothing but acts**, whichever function it is, whatever its
arguments are, and also if it stops with a fault. -/
theorem acts_callApi (api : Api) (arguments : List Value) :
    Acts naming (Eval.callApi naming binding api arguments) := by
  unfold Eval.callApi
  generalize arguments[0]? = leading, arguments[1]? = second, arguments[2]? = third
  dsimp only
  generalize leading.getD .undefined = first
  cases api with
  | style => exact acts_style _
  | styleVariants =>
    cases first with
    | object entries => exact (acts_variants entries).bind fun _ => .pure _
    | _ => exact .fail _
  | globalStyle =>
    refine (Acts.argumentText leading _).bind fun selector => ?_
    cases second with
    | none => exact .fail _
    | some given =>
      cases given with
      | object rule =>
        exact (Acts.resolveSelector _).bind fun resolved =>
          (acts_recordStyle _ _ _).bind fun _ => .pure _
      | _ => exact .fail _
  | keyframes =>
    cases first with
    | object frames =>
      exact (Acts.mint _).bind fun name => (Acts.lift _).bind fun text =>
        (Acts.recordText _).bind fun _ => .pure _
    | _ => exact .fail _
  | fontFace =>
    refine (Acts.mint _).bind fun name => ?_
    exact (Acts.forM (acts_recordFace name) _).bind fun _ => .pure _
  | globalFontFace =>
    refine (Acts.argumentText leading _).bind fun name => ?_
    exact (acts_recordFace _ _).bind fun _ => .pure _
  | createVar => exact (Acts.mint _).bind fun name => .pure _
  | fallbackVar =>
    refine (Acts.lift _).bind fun texts => ?_
    cases texts.getLast? with
    | none => exact .fail _
    | some last => exact .pure _
  | createThemeContract => exact acts_contract _ _
  | assignVars => exact (Acts.lift _).bind fun _ => .pure _
  | createTheme =>
    cases second with
    | none => exact acts_theme first
    | some given =>
      cases given with
      | object tokens => exact (acts_themeClass _ _).bind fun _ => .pure _
      | _ => exact acts_theme first
  | createGlobalTheme =>
    refine (Acts.argumentText leading _).bind fun selector => ?_
    cases third with
    | some tokens =>
      exact (Acts.lift _).bind fun assigned => (acts_recordStyle _ _ _).bind fun _ => .pure _
    | none =>
      refine (acts_contract _ _).bind fun made => (Acts.lift _).bind fun assigned => ?_
      exact (acts_recordStyle _ _ _).bind fun _ => .pure _

end Calls

end StyleGraph.Static
