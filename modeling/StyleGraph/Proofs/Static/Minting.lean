import StyleGraph.Proofs.Static.Keep
import StyleGraph.Proofs.Static.Naming
import StyleGraph.Proofs.Static.Steps
import StyleGraph.Proofs.Static.Theme

/-!
# The names that a module generates

Each call of a style function generates names for bindings that can be read off its arguments, and
all of them are in what the call returns (`callApi_mints`). An evaluation generates names in its
calls only (`evaluateModule_runs`), so they are numbered from zero on without gaps, and which of
them are identifiers is known from their bindings. An evaluation that stops with a fault has done so
behind such a run, in the middle of one more call at most (`Stops`).
-/

set_option autoImplicit false

namespace StyleGraph.Static

/-- The bindings of the variables of a contract for tokens. -/
def treeBindings (binding : Option String) (tokens : Value) : List (Option String) :=
  Theme.leafBindings binding tokens.leaves

/-- The bindings that a call of a style function generates names for. -/
def Api.bindings (binding : Option String) (arguments : List Value) (api : Api) :
    List (Option String) :=
  let leading : Option Value := arguments[0]?
  let second : Option Value := arguments[1]?
  let third : Option Value := arguments[2]?
  match api with
  | .style =>
    match second with
    | some (.text given) => [some given]
    | _ => [binding]
  | .styleVariants =>
    match leading.getD .undefined with
    | .object entries => entries.map fun entry => some (Theme.partName binding entry.1)
    | _ => []
  | .keyframes | .fontFace | .createVar => [binding]
  | .createThemeContract => treeBindings binding (leading.getD .undefined)
  | .createTheme =>
    match second with
    | some (.object _) => [binding]
    | _ => treeBindings binding (leading.getD .undefined) ++ [binding]
  | .createGlobalTheme =>
    match third with
    | some _ => []
    | none => treeBindings binding (second.getD .undefined)
  | .globalStyle | .globalFontFace | .fallbackVar | .assignVars => []

/-- A name is part of the text of a leaf of a value. -/
def Value.Shows (value : Value) (name : String) : Prop :=
  ∃ leaf ∈ value.leaves, ∃ before after, leaf.value.asText? = some (before ++ name ++ after)

namespace Value.Shows

variable {value : Value} {name : String}

/-- An object shows what its first entry shows, with the key in front of the leaf. -/
theorem head {key : String} {rest : Entries} (shows : value.Shows name) :
    (Value.object ((key, value) :: rest)).Shows name := by
  obtain ⟨leaf, mem, text⟩ := shows
  exact ⟨leaf.within [key], List.mem_append_left _ (List.mem_map_of_mem mem), text⟩

/-- An object shows what its further entries show. -/
theorem tail {entry : String × Value} {rest : Entries} (shows : (Value.object rest).Shows name) :
    (Value.object (entry :: rest)).Shows name := by
  obtain ⟨leaf, mem, text⟩ := shows
  exact ⟨leaf, List.mem_append_right _ mem, text⟩

/-- A text shows itself. -/
theorem itself (name : String) : (Value.text name).Shows name := by
  refine ⟨⟨[], .text name⟩, List.mem_singleton.mpr rfl, "", "", ?_⟩
  rw [String.empty_append, String.append_empty]
  rfl

/-- A class shows its name. -/
theorem classes (name : String) : (Value.classes name).Shows name := by
  refine ⟨⟨[], .classes name⟩, List.mem_singleton.mpr rfl, "", "", ?_⟩
  rw [String.empty_append, String.append_empty]
  rfl

/-- A list shows what its items show. -/
theorem item {items : List Value} (mem : value ∈ items) (shows : value.Shows name) :
    (Value.array items).Shows name := by
  obtain ⟨leaf, listed, text⟩ := shows
  refine ⟨leaf, ?_, text⟩
  rw [Value.leaves, leavesOfItems_eq]
  exact List.mem_flatMap.mpr ⟨value, mem, listed⟩

end Value.Shows

/-- Names are generated for bindings, with the numbers that come next, and listed behind those that
there were. All of them are shown. -/
structure Mints (naming : Naming) (state : State) (made : List (Option String))
    (shown : String → Prop) (final : State) : Prop where
  names : final.names = state.names ++ naming.numbered state.ordinal made
  shows : ∀ name ∈ naming.numbered state.ordinal made, shown name

namespace Mints

variable {naming : Naming} {state middle final : State} {made more : List (Option String)}
  {shown also : String → Prop}

/-- A step that generates nothing adds no names and has nothing to show. -/
theorem none (same : final.names = state.names) : Mints naming state [] shown final :=
  ⟨same.trans (List.append_nil _).symm, fun _ mem => nomatch mem⟩

/-- One name, which is added behind the others and is shown. -/
theorem one {binding : Option String}
    (next : final.names = state.names ++ [naming.name state.ordinal binding])
    (shows : shown (naming.name state.ordinal binding)) :
    Mints naming state [binding] shown final :=
  ⟨next, fun _ mem => List.mem_singleton.mp mem ▸ shows⟩

/-- The next number is known from the bindings alone. -/
theorem ordinal (mints : Mints naming state made shown final) :
    final.ordinal = state.ordinal + made.length := by
  rw [State.ordinal, mints.names, List.length_append, Naming.length_numbered]
  rfl

/-- Names that are generated one after the other are numbered without gaps. -/
theorem append (first : Mints naming state made shown middle)
    (second : Mints naming middle more shown final) :
    Mints naming state (made ++ more) shown final := by
  constructor
  · rw [second.names, first.names, first.ordinal, Naming.numbered_append, List.append_assoc]
  · intro name mem
    rw [Naming.numbered_append, ← first.ordinal] at mem
    exact (List.mem_append.mp mem).elim (first.shows name) (second.shows name)

/-- What follows generates nothing. -/
theorem settled (mints : Mints naming state made shown middle)
    (same : final.names = middle.names) : Mints naming state made shown final :=
  ⟨same.trans mints.names, mints.shows⟩

/-- Names that are shown by a part are shown by the whole, so what is shown may be changed as long
as nothing gets lost. -/
theorem mono (mints : Mints naming state made shown final)
    (weaker : ∀ name, shown name → also name) :
    Mints naming state made also final :=
  ⟨mints.names, fun name mem => weaker name (mints.shows name mem)⟩

end Mints

/-! ## Steps that generate nothing -/

/-- A step that asks for an object was given one. -/
theorem object_of_run {α : Type} {fault : Fault} {next : Entries → Eval α} {value : Value}
    {result : α × State} {state : State}
    (done : (match value with
      | .object entries => next entries
      | _ => Eval.fail fault) state = .ok result) :
    ∃ entries, value = .object entries ∧ next entries state = .ok result := by
  cases value with
  | object entries => exact ⟨entries, rfl, done⟩
  | _ => cases done

/-- The same for an argument, which may be missing altogether. Which object it was is of no interest
to the callers. -/
theorem argument_of_run {α : Type} {fault : Fault} {next : Entries → Eval α}
    {argument : Option Value} {result : α × State} {state : State}
    (done : (match argument with
      | some (.object entries) => next entries
      | _ => Eval.fail fault) state = .ok result) :
    ∃ entries, next entries state = .ok result := by
  cases argument with
  | none => cases done
  | some value =>
    cases value with
    | object entries => exact ⟨entries, done⟩
    | _ => cases done

/-- Recording a style object changes the output only, so it generates no names. This is read off
what recording does as a whole, not off its recursion. -/
theorem names_of_recordStyle {selector : String} {conditions : List String} {rule : Entries}
    {state final : State}
    (done : Eval.recordStyle selector conditions rule state = .ok ((), final)) :
    final.names = state.names := by
  obtain ⟨succeeds, records⟩ := records_recordStyle selector conditions rule state
  obtain ⟨output, recorded⟩ := records (succeeds ⟨_, done⟩)
  cases done.symm.trans recorded
  rfl

/-- A font face is a text that is recorded. -/
theorem names_of_recordFace {family : String} {face : Value} {state final : State}
    (done : Eval.recordFace family face state = .ok ((), final)) :
    final.names = state.names := by
  cases face with
  | object rule =>
    obtain ⟨found, _, lifted, recorded⟩ := run_bind_eq_ok done
    obtain ⟨-, rfl⟩ := lift_eq_ok lifted
    cases recorded
    rfl
  | _ => cases done

/-- Font faces one after the other, by induction on the list. -/
theorem names_of_recordFaces {family : String} {faces : List Value} {state final : State}
    (done : faces.forM (Eval.recordFace family) state = .ok ((), final)) :
    final.names = state.names := by
  induction faces generalizing state with
  | nil => cases done; rfl
  | cons face faces ih =>
    obtain ⟨_, middle, first, rest⟩ := run_bind_eq_ok done
    rw [ih rest, names_of_recordFace first]

/-! ## Calls -/

section Calls

variable {naming : Naming} {binding : Option String} {state final : State} {value : Value}

/-- The last of joined texts stands at the end. -/
theorem exists_intercalate_append (lead : String) (texts : List String) (last : String) :
    ∃ before, lead.intercalate (texts ++ [last]) = before ++ last := by
  obtain ⟨before, joined⟩ : ∃ before : List Char,
      (lead.intercalate (texts ++ [last])).toList = before ++ last.toList := by
    rw [Text.toList_intercalate, List.map_append, List.map_cons, List.map_nil,
      Text.joinWith_append_singleton]
    split
    · exact ⟨[], rfl⟩
    · exact ⟨_, rfl⟩
  refine ⟨String.ofList before, String.toList_inj.mp ?_⟩
  rw [joined, String.toList_append, String.toList_ofList]

/-- A style generates one class, before its parts are looked at. The class ends the text that the
style returns, behind the classes it is composed of, which is where it is shown. -/
theorem mints_style {rule : Value}
    (done : Eval.style naming binding rule state = .ok (value, final)) :
    Mints naming state [binding] value.Shows final := by
  rw [style_eq_givenParts] at done
  obtain ⟨name, _, minted, done⟩ := run_bind_eq_ok done
  cases minted
  obtain ⟨parts, _, lifted, done⟩ := run_bind_eq_ok done
  obtain ⟨-, rfl⟩ := lift_eq_ok lifted
  obtain ⟨_, _, recorded, done⟩ := run_bind_eq_ok done
  cases done
  obtain ⟨before, joined⟩ :=
    exists_intercalate_append " " parts.composed (naming.name state.ordinal binding)
  refine .one (names_of_recordStyle recorded)
    ⟨⟨[], _⟩, List.mem_singleton.mpr rfl, before, "", ?_⟩
  rw [joined, String.append_empty]
  rfl

/-- Styles by their keys generate a class for each key, in the order of the keys, and the object
that is returned shows each under its key. -/
theorem mints_variants {entries made : Entries}
    (done : Eval.variants naming binding entries state = .ok (made, final)) :
    Mints naming state (entries.map fun entry => some (Theme.partName binding entry.1))
      (Value.object made).Shows final := by
  induction entries generalizing state made with
  | nil =>
    cases done
    exact .none rfl
  | cons entry entries ih =>
    obtain ⟨value, _, styled, done⟩ := run_bind_eq_ok done
    obtain ⟨more, _, rest, done⟩ := run_bind_eq_ok done
    cases done
    exact ((mints_style styled).mono fun _ => .head).append ((ih rest).mono fun _ => .tail)

/-- A contract generates a variable for every leaf of its tokens. The text of the variable stands at
the same place of the contract, between the words of the reference. -/
theorem mints_contract {tokens made : Value}
    (done : Theme.contract naming binding tokens state = .ok (made, final)) :
    Mints naming state (treeBindings binding tokens) made.Shows final := by
  obtain ⟨rfl, -, numbered, -⟩ := Theme.made_of_contract done
  refine ⟨rfl, fun name mem => ?_⟩
  rw [treeBindings, Theme.leafBindings, Naming.numbered, List.zipIdx_map, List.map_map] at mem
  obtain ⟨leaf, listed, rfl⟩ := List.mem_map.mp mem
  refine ⟨Theme.numberedLeaf naming binding leaf, ?_, "var(--", ")", rfl⟩
  rw [numbered]
  exact List.mem_map_of_mem listed

/-- The class of a theme is generated after the tokens were assigned, and it is what the theme
returns. -/
theorem mints_themeClass {contract tokens : Value} {name : String}
    (done : Theme.themeClass naming binding contract tokens state = .ok (name, final)) :
    Mints naming state [binding] (fun made => made = name) final := by
  obtain ⟨assigned, -, _, recorded, same⟩ := Theme.themeClass_steps.mp done
  cases same
  exact .one (names_of_recordStyle recorded) rfl

/-- A theme with its contract. The variables come first, and the class of the theme behind them. -/
theorem mints_theme {tokens : Value}
    (done : (do
      let made ← Theme.contract naming binding tokens
      let name ← Theme.themeClass naming binding made tokens
      pure (Value.array [.classes name, made])) state = .ok (value, final)) :
    Mints naming state (treeBindings binding tokens ++ [binding]) value.Shows final := by
  obtain ⟨made, _, contracted, done⟩ := run_bind_eq_ok done
  obtain ⟨name, _, themed, done⟩ := run_bind_eq_ok done
  cases done
  refine ((mints_contract contracted).mono fun _ shows => ?_).append
    ((mints_themeClass themed).mono fun _ same => ?_)
  · exact .item (List.mem_cons_of_mem _ List.mem_cons_self) shows
  · subst same
    exact .item List.mem_cons_self (.classes _)

/-- **A call generates names** for its bindings, and no others, and all of them are in what it
returns. -/
theorem callApi_mints {api : Api} {arguments : List Value}
    (done : Eval.callApi naming binding api arguments state = .ok (value, final)) :
    Mints naming state (api.bindings binding arguments) value.Shows final := by
  unfold Eval.callApi at done
  unfold Api.bindings
  generalize arguments[0]? = leading, arguments[1]? = second, arguments[2]? = third at done ⊢
  cases api with
  | style =>
    cases second with
    | none => exact mints_style done
    | some given =>
      cases given with
      | text given => exact mints_style done
      | _ => exact mints_style done
  | styleVariants =>
    obtain ⟨entries, object, done⟩ := object_of_run done
    simp only [object]
    obtain ⟨made, _, varied, done⟩ := run_bind_eq_ok done
    cases done
    exact mints_variants varied
  | globalStyle =>
    obtain ⟨selector, _, texted, done⟩ := run_bind_eq_ok done
    cases argumentText_eq texted
    obtain ⟨rule, done⟩ := argument_of_run done
    obtain ⟨resolved, _, found, done⟩ := run_bind_eq_ok done
    cases found
    obtain ⟨_, _, recorded, done⟩ := run_bind_eq_ok done
    cases done
    exact .none (names_of_recordStyle recorded)
  | keyframes =>
    obtain ⟨frames, -, done⟩ := object_of_run done
    obtain ⟨name, _, minted, done⟩ := run_bind_eq_ok done
    cases minted
    obtain ⟨text, _, lifted, rest⟩ := run_bind_eq_ok done
    obtain ⟨-, rfl⟩ := lift_eq_ok lifted
    cases rest
    exact .one rfl (.itself _)
  | fontFace =>
    obtain ⟨name, _, minted, done⟩ := run_bind_eq_ok done
    cases minted
    obtain ⟨_, _, recorded, done⟩ := run_bind_eq_ok done
    cases done
    exact .one (names_of_recordFaces recorded) (.itself _)
  | globalFontFace =>
    obtain ⟨name, _, texted, done⟩ := run_bind_eq_ok done
    cases argumentText_eq texted
    obtain ⟨_, _, recorded, done⟩ := run_bind_eq_ok done
    cases done
    exact .none (names_of_recordFace recorded)
  | createVar =>
    obtain ⟨name, _, minted, done⟩ := run_bind_eq_ok done
    cases minted
    cases done
    exact .one rfl ⟨⟨[], _⟩, List.mem_singleton.mpr rfl, "var(--", ")", rfl⟩
  | fallbackVar =>
    obtain ⟨texts, _, lifted, rest⟩ := run_bind_eq_ok done
    obtain ⟨-, rfl⟩ := lift_eq_ok lifted
    cases found : texts.getLast? with
    | none =>
      rw [found] at rest
      cases rest
    | some last =>
      rw [found] at rest
      cases rest
      exact .none rfl
  | createThemeContract => exact mints_contract done
  | assignVars =>
    obtain ⟨assigned, _, lifted, rest⟩ := run_bind_eq_ok done
    obtain ⟨-, rfl⟩ := lift_eq_ok lifted
    cases rest
    exact .none rfl
  | createTheme =>
    cases second with
    | none => exact mints_theme done
    | some given =>
      cases given with
      | object tokens =>
        obtain ⟨name, _, themed, done⟩ := run_bind_eq_ok done
        cases done
        exact (mints_themeClass themed).mono fun _ same => same ▸ .classes _
      | _ => exact mints_theme done
  | createGlobalTheme =>
    obtain ⟨selector, _, texted, done⟩ := run_bind_eq_ok done
    cases argumentText_eq texted
    cases third with
    | some tokens =>
      obtain ⟨assigned, _, lifted, rest⟩ := run_bind_eq_ok done
      obtain ⟨-, rfl⟩ := lift_eq_ok lifted
      obtain ⟨_, _, recorded, done⟩ := run_bind_eq_ok rest
      cases done
      exact .none (names_of_recordStyle recorded)
    | none =>
      -- The contract is made first, and only then assigned to.
      obtain ⟨made, _, contracted, done⟩ := run_bind_eq_ok done
      obtain ⟨assigned, _, lifted, rest⟩ := run_bind_eq_ok done
      obtain ⟨-, rfl⟩ := lift_eq_ok lifted
      obtain ⟨_, _, recorded, done⟩ := run_bind_eq_ok rest
      cases done
      exact (mints_contract contracted).settled (names_of_recordStyle recorded)

end Calls

/-! ## Evaluations -/

/-- How an evaluation changes its state: it binds names and calls style functions. The bindings that
it generates names for are listed. -/
inductive Runs (naming : Naming) : State → List (Option String) → State → Prop
  | still (state : State) : Runs naming state [] state
  | bound (state : State) (name : String) (value : Value) :
      Runs naming state [] { state with bindings := state.bindings.insert name value }
  | called {binding : Option String} {api : Api} {arguments : List Value} {state final : State}
      {value : Value}
      (done : Eval.callApi naming binding api arguments state = .ok (value, final)) :
      Runs naming state (api.bindings binding arguments) final
  | seq {state middle final : State} {made more : List (Option String)}
      (first : Runs naming state made middle) (second : Runs naming middle more final) :
      Runs naming state (made ++ more) final

/-- The names that a run generates are numbered without gaps. -/
theorem Runs.names {naming : Naming} {state final : State} {made : List (Option String)}
    (runs : Runs naming state made final) :
    final.names = state.names ++ naming.numbered state.ordinal made := by
  -- of the shown names only the numbering is kept, which runs put together as calls do
  have mints : Mints naming state made (fun _ => True) final := by
    induction runs with
    | still state => exact .none rfl
    | bound state name value => exact .none rfl
    | called done => exact (callApi_mints done).mono fun _ _ => trivial
    | seq _ _ first second => exact first.append second
  exact mints.names

/-- What a run does to the state are acts. -/
theorem Runs.exists_acts {naming : Naming} {state final : State} {made : List (Option String)}
    (runs : Runs naming state made final) : ∃ acts, final = Act.applyAll naming state acts := by
  induction runs with
  | still state => exact ⟨[], rfl⟩
  | bound state name value => exact ⟨[.bound name value], rfl⟩
  | @called binding api arguments state final value done =>
    obtain ⟨acts, ends⟩ := acts_callApi api arguments state
    exact ⟨acts, (finalState_of_ok done).symm.trans ends⟩
  | seq _ _ first second =>
    obtain ⟨acts, rfl⟩ := first
    obtain ⟨more, rfl⟩ := second
    exact ⟨acts ++ more, (Act.applyAll_append naming _ acts more).symm⟩

/-- Where an evaluation stops with a fault: behind a run, or in a call behind a run. -/
inductive Stops (naming : Naming) (state : State) (stop : Stop) : Prop
  | behind {made : List (Option String)} (runs : Runs naming state made stop.state)
  | within {made : List (Option String)} {middle : State} {binding : Option String} {api : Api}
      {arguments : List Value} (runs : Runs naming state made middle)
      (failed : Eval.callApi naming binding api arguments middle = .error stop)

namespace Stops

variable {naming : Naming} {state middle : State} {stop : Stop}

/-- What ran before goes before. -/
theorem after {made : List (Option String)} (stops : Stops naming middle stop)
    (runs : Runs naming state made middle) : Stops naming state stop := by
  cases stops with
  | behind more => exact .behind (runs.seq more)
  | within more failed => exact .within (runs.seq more) failed

/-- What was done before a fault are acts as well. -/
theorem exists_acts (stops : Stops naming state stop) :
    ∃ acts, stop.state = Act.applyAll naming state acts := by
  cases stops with
  | behind runs => exact runs.exists_acts
  | @within _ _ binding api arguments runs failed =>
    obtain ⟨acts, rfl⟩ := runs.exists_acts
    obtain ⟨more, ends⟩ := acts_callApi api arguments (Act.applyAll naming state acts)
    refine ⟨acts ++ more, ?_⟩
    rw [Act.applyAll_append, ← ends, finalState_of_error failed]

end Stops

/-- A step runs if it goes through, and stops behind a run if it does not. -/
structure Performs (naming : Naming) {α : Type} (step : Eval α) : Prop where
  runs : ∀ state value final, step state = .ok (value, final) → ∃ made, Runs naming state made final
  stops : ∀ state stop, step state = .error stop → Stops naming state stop

namespace Performs

variable {naming : Naming} {α β : Type}

/-- A step that leaves the state as it is, wherever it ends, is a run of nothing. -/
theorem still {step : Eval α} (same : ∀ state, Eval.finalState step state = state) :
    Performs naming step where
  runs state value final done := by
    have ends := (finalState_of_ok done).symm.trans (same state)
    exact ⟨[], by rw [ends]; exact .still state⟩
  stops state stop failed := by
    have ends := (finalState_of_error failed).symm.trans (same state)
    have runs : Runs naming state [] stop.state := by rw [ends]; exact .still state
    exact .behind runs

/-- One step after the other. If the first one stops, the second one is not reached and the stop is
that of the first; if the second one stops, it does so behind the run of the first. -/
theorem bind {step : Eval α} {next : α → Eval β} (first : Performs naming step)
    (rest : ∀ value, Performs naming (next value)) : Performs naming (step >>= next) where
  runs state result final done := by
    obtain ⟨value, middle, here, there⟩ := run_bind_eq_ok done
    obtain ⟨made, runs⟩ := first.runs state value middle here
    obtain ⟨more, others⟩ := (rest value).runs middle result final there
    exact ⟨made ++ more, runs.seq others⟩
  stops state stop failed := by
    cases here : step state with
    | error earlier =>
      rw [bind_of_error here] at failed
      cases failed
      exact first.stops state stop here
    | ok result =>
      rw [bind_of_ok here] at failed
      obtain ⟨made, runs⟩ := first.runs state result.1 result.2 here
      exact ((rest result.1).stops result.2 stop failed).after runs

/-- A step that depends on the state is looked at for each state. -/
theorem get {next : State → Eval β} (rest : ∀ state, Performs naming (next state)) :
    Performs naming (do next (← MonadState.get)) where
  runs state := (rest state).runs state
  stops state := (rest state).stops state

theorem pure (value : α) : Performs naming (Pure.pure value) := .still fun _ => rfl

theorem fail (fault : Fault) : Performs naming (Eval.fail fault : Eval α) := .still fun _ => rfl

/-- Binding a name is a kind of run of its own and cannot fail. -/
theorem bindName (name : String) (value : Value) : Performs naming (Eval.bindName name value) where
  runs state _ final done := by
    cases done
    exact ⟨[], .bound state name value⟩
  stops _ _ failed := nomatch failed

/-- A name is looked up without a change, and an unbound one stops the evaluation where it is. -/
theorem lookup (name : String) : Performs naming (Eval.lookup name) := by
  refine .get fun state => ?_
  cases state.bindings.get? name with
  | none => exact .fail _
  | some value => exact .pure value

/-- A member is looked up in a value that is there already. -/
theorem memberOf (object : Value) (key : String) : Performs naming (Eval.memberOf object key) := by
  unfold Eval.memberOf
  split
  next => exact .pure _
  next =>
    split
    next => exact .pure _
    next => exact .fail _
  next => exact .fail _

/-- A call is a kind of run of its own if it goes through. If it stops, it does so in the middle,
which is the only place where a stop is not behind a run. -/
theorem callApi {binding : Option String} {api : Api} {arguments : List Value} :
    Performs naming (Eval.callApi naming binding api arguments) where
  runs _ _ _ done := ⟨_, .called done⟩
  stops state _ failed := .within (.still state) failed

/-- Items one after the other, by induction on the list. -/
theorem forM {items : List α} {step : α → Eval PUnit} (each : ∀ item, Performs naming (step item)) :
    Performs naming (items.forM step) := by
  induction items with
  | nil => exact .pure _
  | cons item items ih => exact (each item).bind fun _ => ih

/-- Steps that pass on a value, by induction on the list. -/
theorem foldlM {items : List α} {step : β → α → Eval β}
    (each : ∀ value item, Performs naming (step value item)) (value : β) :
    Performs naming (items.foldlM step value) := by
  induction items generalizing value with
  | nil => exact .pure value
  | cons item items ih => exact (each value item).bind ih

end Performs

section Evaluations

open Script (Expression Part Property Key Item Statement Declarator)

variable {naming : Naming}

mutual

/-- The evaluation of an expression changes the state by calls only, whether it goes through or
stops. The recursion is that of the evaluation, over all kinds of syntax. -/
theorem performs_eval : ∀ (expression : Expression) (binding : Option String),
    Performs naming (Eval.eval naming binding expression)
  | .text _, _ | .number _, _ | .null, _ => by
    simp only [Eval.eval]
    exact .pure _
  | .name ident, _ => by
    rw [Eval.eval]
    split
    next => exact .pure _
    next => exact .lookup ident
  | .negate operand, _ => by
    rw [Eval.eval]
    refine (performs_eval operand none).bind fun value => ?_
    split
    next => exact .pure _
    next => exact .fail _
  | .template head parts, _ => by
    rw [Eval.eval]
    exact performs_evalParts parts head
  | .object properties, _ => by
    rw [Eval.eval]
    exact (performs_evalProperties properties []).bind fun _ => .pure _
  | .array items, _ => by
    rw [Eval.eval]
    exact (performs_evalItems items .irregularItem).bind fun _ => .pure _
  | .member object key, _ => by
    rw [Eval.eval]
    exact (performs_eval object none).bind fun value => .memberOf value key
  | .index object key, _ => by
    rw [Eval.eval]
    refine (performs_eval object none).bind fun value => ?_
    refine (performs_eval key none).bind fun name => ?_
    split
    next => exact .memberOf value _
    next => exact .fail _
  | .call (.name callee) arguments, binding => by
    rw [Eval.eval]
    refine .get fun state => ?_
    split
    next => exact .pure _
    next =>
      refine (performs_evalItems arguments .spreadArgument).bind fun values => ?_
      split
      next => exact .callApi
      next => exact .fail _
  | .call (.text _) _, _ | .call (.number _) _, _ | .call .null _, _ | .call (.negate _) _, _
  | .call (.template _ _) _, _ | .call (.object _) _, _ | .call (.array _) _, _
  | .call (.member _ _) _, _ | .call (.index _ _) _, _ | .call (.call _ _) _, _
  | .call (.group _) _, _ | .call .other _, _ => by
    simp only [Eval.eval]
    exact .fail _
  | .group inner, binding => by
    rw [Eval.eval]
    exact performs_eval inner binding
  | .other, _ => by
    rw [Eval.eval]
    exact .fail _

/-- The parts of a template. An unresolved part ends it early, without a fault. By recursion on the
parts, each of which is an expression of its own. -/
theorem performs_evalParts : ∀ (parts : List Part) (text : String),
    Performs naming (Eval.evalParts naming text parts)
  | [], text => by
    rw [Eval.evalParts]
    exact .pure _
  | .mk value following :: rest, text => by
    rw [Eval.evalParts]
    refine (performs_eval value none).bind fun part => ?_
    split
    next => exact .pure _
    next =>
      split
      next => exact performs_evalParts rest _
      next => exact .fail _

/-- The entries of an object, with computed keys before their values. A value may call a style
function, so every entry can generate names. -/
theorem performs_evalProperties : ∀ (properties : List Property) (entries : Entries),
    Performs naming (Eval.evalProperties naming entries properties)
  | [], entries => by
    rw [Eval.evalProperties]
    exact .pure _
  | .keyed key value :: rest, entries => by
    rw [Eval.evalProperties]
    refine (performs_evalKey key).bind fun name => ?_
    exact (performs_eval value none).bind fun found => performs_evalProperties rest _
  | .spread value :: rest, entries => by
    rw [Eval.evalProperties]
    refine (performs_eval value none).bind fun found => ?_
    split
    next => exact performs_evalProperties rest _
    next => exact .fail _

/-- A key is a text, or an expression that is evaluated as one. -/
theorem performs_evalKey : ∀ key : Key, Performs naming (Eval.evalKey naming key)
  | .named name => by
    rw [Eval.evalKey]
    exact .pure _
  | .computed value => by
    rw [Eval.evalKey]
    refine (performs_eval value none).bind fun found => ?_
    split
    next => exact .pure _
    next => exact .fail _

/-- The items of a list, or the arguments of a call. -/
theorem performs_evalItems : ∀ (items : List Item) (irregular : Fault),
    Performs naming (Eval.evalItems naming irregular items)
  | [], _ => by
    rw [Eval.evalItems]
    exact .pure _
  | .single value :: rest, irregular => by
    rw [Eval.evalItems]
    refine (performs_eval value none).bind fun found => ?_
    exact (performs_evalItems rest irregular).bind fun _ => .pure _
  | .irregular :: _, irregular => by
    rw [Eval.evalItems]
    exact .fail irregular

end

/-- A pattern binds its names one after the other. -/
theorem performs_bindItems : ∀ (names : List String) (items : List Value),
    Performs naming (Eval.bindItems names items)
  | [], _ => .pure _
  | name :: names, [] =>
    (Performs.bindName name .undefined).bind fun _ => performs_bindItems names []
  | name :: names, item :: items =>
    (Performs.bindName name item).bind fun _ => performs_bindItems names items

/-- A variable without a value is undefined, and nothing is done for it. -/
theorem performs_initial (binding : Option String) (value : Option Expression) :
    Performs naming (Eval.initial naming binding value) := by
  cases value with
  | none => exact .pure _
  | some value => exact performs_eval value binding

/-- A declaration evaluates its value and then binds its names. -/
theorem performs_declare (declarator : Declarator) :
    Performs naming (Eval.declare naming declarator) := by
  unfold Eval.declare
  split
  next => exact (performs_initial _ _).bind fun value => .bindName _ value
  next =>
    refine (performs_initial _ _).bind fun value => ?_
    split
    next => exact performs_bindItems _ _
    next => exact performs_bindItems _ _
  next => exact .pure _

/-- **A statement is a run**, or stops behind one. Statements without a value do nothing to the
state, since exports are collected beside it. -/
theorem performs_step (environment : Environment) (exported : Exported) (statement : Statement) :
    Performs naming (Eval.step naming environment exported statement) := by
  unfold Eval.step
  split
  next names source =>
    split
    next => exact (Performs.forM fun _ => .bindName _ _).bind fun _ => .pure _
    next => exact .pure _
  next declarators => exact (Performs.forM performs_declare).bind fun _ => .pure _
  next declarators names source =>
    exact (Performs.forM performs_declare).bind fun _ => .pure _
  next => exact .pure _
  next value => exact (performs_eval value _).bind fun _ => .pure _
  next value => exact (performs_eval value _).bind fun _ => .pure _
  next => exact .pure _

/-- All statements of a module, one after the other. The evaluation of the module stops with the
first statement that does. -/
theorem performs_runStatements (environment : Environment) (statements : List Statement) :
    Performs naming (runStatements naming environment statements) :=
  .foldlM (performs_step environment) {}

end Evaluations

/-- **A module is evaluated** by binding names and calling style functions. -/
theorem evaluateModule_runs {source path project : String} {environment : Environment}
    {evaluated : Evaluated}
    (evaluates : evaluateModule source path project environment = .ok evaluated) :
    ∃ made, Runs (.ofPath path project) {} made (moduleState source path project environment) ∧
      evaluated.css = (moduleState source path project environment).output.render := by
  obtain ⟨statements, exported, -, run, rfl⟩ := evaluateModule_eq_ok_iff.mp evaluates
  obtain ⟨made, runs⟩ := (performs_runStatements environment statements).runs {} exported _ run
  exact ⟨made, runs, rfl⟩

/-- **What the evaluation of a module does are acts**, also if it stops with a fault, and none if
the text is no script. -/
theorem exists_acts_moduleState (source path project : String) (environment : Environment) :
    ∃ acts, moduleState source path project environment =
      Act.applyAll (.ofPath path project) {} acts := by
  unfold moduleState
  cases Script.read? ((Script.Flavor.ofPath? path).getD .plain) source with
  | none => exact ⟨[], rfl⟩
  | some statements =>
    dsimp only
    have performs : Performs (.ofPath path project)
        (runStatements (.ofPath path project) environment statements) :=
      performs_runStatements environment statements
    cases run : runStatements (.ofPath path project) environment statements {} with
    | ok result =>
      rw [finalState_of_ok run]
      obtain ⟨made, runs⟩ := performs.runs {} result.1 result.2 run
      exact runs.exists_acts
    | error stop =>
      rw [finalState_of_error run]
      exact (performs.stops {} stop run).exists_acts

/-- **The names that a module generates** are numbered from zero on, and each is an identifier just
if the stem of the file and the binding have only characters of identifiers and the stem does not
begin like a number. Nothing else that the module says makes a difference. A call shows all names
that it generates in the value that it returns. -/
theorem evaluateModule_identifiers {source path project : String} {environment : Environment}
    {evaluated : Evaluated}
    (evaluates : evaluateModule source path project environment = .ok evaluated) :
    ∃ made, Runs (.ofPath path project) {} made (moduleState source path project environment) ∧
      evaluated.css = (moduleState source path project environment).output.render ∧
      (moduleState source path project environment).names =
        (Naming.ofPath path project).numbered 0 made ∧
      (∀ minted ∈ made.zipIdx,
        (IsIdentifier ((Naming.ofPath path project).name minted.2 minted.1) ↔
          HasIdentifierChars (Naming.ofPath path project).stem ∧
          beginsNumeric (Naming.ofPath path project).stem.toList = false ∧
          HasIdentifierChars (minted.1.getD ""))) ∧
      ∀ binding api arguments state value final,
        Eval.callApi (.ofPath path project) binding api arguments state = .ok (value, final) →
        Mints (.ofPath path project) state (api.bindings binding arguments) value.Shows final := by
  obtain ⟨made, runs, rendered⟩ := evaluateModule_runs evaluates
  exact ⟨made, runs, rendered, runs.names, fun minted _ => Naming.isIdentifier_name_iff _ _ _,
    fun _ _ _ _ _ _ done => callApi_mints done⟩

/-- Styles with a blank in a key. -/
def sizesSource : String :=
  "const size = styleVariants(\x7b 'extra large': \x7b color: 'red' \x7d \x7d);"

/-- The one name of the module has a blank, and so has its binding. It shows what the exact
statement allows: the name is no identifier because the binding is none. -/
theorem evaluateModule_identifiers_sizes :
    ∃ evaluated, evaluateModule sizesSource "/app/a.css.ts" "/app" [] = .ok evaluated ∧
      (moduleState sizesSource "/app/a.css.ts" "/app" []).names =
        ["a_size_extra large__b4c01d58"] ∧
      ∃ made, Runs (.ofPath "/app/a.css.ts" "/app") {} made
          (moduleState sizesSource "/app/a.css.ts" "/app" []) ∧
        ∀ minted ∈ made.zipIdx,
          (IsIdentifier ((Naming.ofPath "/app/a.css.ts" "/app").name minted.2 minted.1) ↔
            HasIdentifierChars (Naming.ofPath "/app/a.css.ts" "/app").stem ∧
            beginsNumeric (Naming.ofPath "/app/a.css.ts" "/app").stem.toList = false ∧
            HasIdentifierChars (minted.1.getD "")) := by
  have chars : sizesSource.toList = _ := String.toList_ofList
  have found : (evaluateModule sizesSource "/app/a.css.ts" "/app" []).toBool = true ∧
      (moduleState sizesSource "/app/a.css.ts" "/app" []).names =
        ["a_size_extra large__b4c01d58"] := by
    rewrite [evaluateModule, moduleState, Script.read?, chars]
    decide +kernel
  cases evaluates : evaluateModule sizesSource "/app/a.css.ts" "/app" [] with
  | error _ => rw [evaluates] at found; cases found.1
  | ok evaluated =>
    obtain ⟨made, runs, -, -, identifiers, -⟩ := evaluateModule_identifiers evaluates
    exact ⟨evaluated, rfl, found.2, made, runs, identifiers⟩

/-- **A blank in a key** is a blank in the class, whose rule is then written for two. -/
theorem evaluateModule_sizes :
    (evaluateModule sizesSource "/app/a.css.ts" "/app" []).map Evaluated.css =
        .ok ".a_size_extra large__b4c01d58 \x7b\n  color: red;\n\x7d\n" ∧
      (Naming.ofPath "/app/a.css.ts" "/app").name 0 (some "size_extra large") =
        "a_size_extra large__b4c01d58" ∧
      ¬IsIdentifier "a_size_extra large__b4c01d58" := by
  have chars : sizesSource.toList = _ := String.toList_ofList
  rewrite [evaluateModule, Script.read?, chars]
  refine ⟨by decide +kernel, by decide +kernel, fun identifier => ?_⟩
  have blank := identifier.chars ' ' (by decide)
  cases blank

end StyleGraph.Static
