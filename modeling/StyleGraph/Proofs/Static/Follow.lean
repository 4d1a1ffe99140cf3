import StyleGraph.Proofs.Static.Recording
import StyleGraph.Static.Evaluator

/-!
# Evaluations with changed values

A module is evaluated with some values for its names, and once more with others. The levels of the
names say how much of their values may have changed. The second evaluation follows the first one if
it goes through when the first one does, gives a result that is related to the first one's, and
ends in a state with the same generated names (`Follows`). What was recorded may differ.

The style functions follow themselves if their arguments change as the forms of their parameters
allow (`follows_callApi`), and a style may lose the first part that it is composed of
(`follows_callApi_composed`).
-/

set_option autoImplicit false

namespace StyleGraph.Static

/-- How much of the value of each name may have changed. -/
abbrev Levels := String → Form

/-- Two states of evaluations with different values for names. -/
structure Alike (levels : Levels) (state other : State) : Prop where
  names : other.names = state.names
  classNames : other.classNames = state.classNames
  bindings : ∀ name,
    Option.Rel (At (levels name)) (state.bindings.get? name) (other.bindings.get? name)

/-- States that are alike number the next name alike, since the number is the count of the names so
far. -/
theorem Alike.ordinal {levels : Levels} {state other : State} (alike : Alike levels state other) :
    other.ordinal = state.ordinal :=
  congrArg List.length alike.names

/-- A step goes through when another one does, from a state that is alike, and their results are
related. -/
def Follows (before after : Levels) {α β : Type} (related : α → β → Prop) (step : Eval α)
    (other : Eval β) : Prop :=
  ∀ state state' value final, Alike before state state' → step state = .ok (value, final) →
    ∃ value' final', other state' = .ok (value', final') ∧ related value value' ∧
      Alike after final final'

namespace Follows

variable {before middle after : Levels} {α β γ δ : Type} {related : α → β → Prop}
  {relatedNext : γ → δ → Prop}

theorem pure {value : α} {other : β} (here : related value other) :
    Follows before before related (Pure.pure value) (Pure.pure other) := by
  intro state state' result final alike run
  cases run
  exact ⟨other, state', rfl, here, alike⟩

theorem fail {fault : Fault} {other : Eval β} :
    Follows before after related (Eval.fail fault) other := fun _ _ _ _ _ run => nomatch run

/-- One pair of steps after the other. What the first pair may change in the values of names is what
the second pair starts from, so the levels are threaded through. -/
theorem bind {step : Eval α} {other : Eval β} {next : α → Eval γ} {nextOther : β → Eval δ}
    (first : Follows before middle related step other)
    (rest : ∀ value value', related value value' →
      Follows middle after relatedNext (next value) (nextOther value')) :
    Follows before after relatedNext (step >>= next) (other >>= nextOther) := by
  intro state state' result final alike run
  obtain ⟨⟨value, between⟩, done, remaining⟩ := bind_eq_ok_iff.mp run
  obtain ⟨value', between', done', here, alike⟩ := first state state' value between alike done
  obtain ⟨result', final', ended, there, alike⟩ :=
    rest value value' here between between' result final alike remaining
  exact ⟨result', final', bind_eq_ok_iff.mpr ⟨(value', between'), done', ended⟩, there, alike⟩

/-- Where the results must be the same, the steps after them are compared for one value only. -/
theorem bind_same {step other : Eval α} {next : α → Eval γ} {nextOther : α → Eval δ}
    (first : Follows before middle Eq step other)
    (rest : ∀ value, Follows middle after relatedNext (next value) (nextOther value)) :
    Follows before after relatedNext (step >>= next) (other >>= nextOther) :=
  first.bind fun value _ same => same ▸ rest value

/-- What fails in the end has no result to follow. -/
theorem bind_fail {step : Eval γ} {fault : Fault} {other : Eval β} :
    Follows before after related (step >>= fun _ => (Eval.fail fault : Eval α)) other := by
  intro state state' result final alike run
  obtain ⟨_, _, remaining⟩ := bind_eq_ok_iff.mp run
  cases remaining

/-- Related results may be told less about: most callers need only that they are the same, or
nothing at all. -/
theorem mono {step : Eval α} {other : Eval β} {weaker : α → β → Prop}
    (follows : Follows before after related step other)
    (implies : ∀ value value', related value value' → weaker value value') :
    Follows before after weaker step other := by
  intro state state' value final alike run
  obtain ⟨value', final', done, here, alike⟩ := follows state state' value final alike run
  exact ⟨value', final', done, implies _ _ here, alike⟩

/-- A value that may not change is the same. -/
theorem of_fixed {step other : Eval Value} (follows : Follows before after (At .fixed) step other) :
    Follows before after Eq step other :=
  follows.mono fun _ _ here => here.eq_of_fixed.symm

/-- A result that does not touch the state is followed if the other side has a result as well. This
is where parts of the style functions that fail on some values enter. -/
theorem lift {result : Except Fault α} {other : Except Fault β}
    (goes : ∀ value, result = .ok value → ∃ value', other = .ok value' ∧ related value value') :
    Follows before before related (Eval.lift result) (Eval.lift other) := by
  cases result with
  | error fault => exact fail
  | ok value =>
    obtain ⟨value', rfl, here⟩ := goes value rfl
    exact pure here

/-- What depends on the state depends on states that are alike. -/
theorem get {next : State → Eval γ} {nextOther : State → Eval δ}
    (rest : ∀ state state', Alike before state state' →
      Follows before after relatedNext (next state) (nextOther state')) :
    Follows before after relatedNext (MonadState.get >>= next) (MonadState.get >>= nextOther) :=
  fun state state' value final alike run =>
    rest state state' alike state state' value final alike run

end Follows

variable {levels : Levels}

/-! ## Steps -/

section Steps

variable {naming : Naming} {binding : Option String}

/-- Both evaluations generate the same name, since they have generated the same number of names
before. All equalities of results rest on this. -/
theorem follows_mint :
    Follows levels levels Eq (Eval.mint naming binding) (Eval.mint naming binding) := by
  intro state state' value final alike run
  cases run
  refine ⟨_, _, rfl, ?_, ?_⟩
  · rw [alike.ordinal]
  · refine ⟨?_, alike.classNames, alike.bindings⟩
    dsimp only
    rw [alike.names, alike.ordinal]

/-- The same class is generated in both, and listed in both. -/
theorem follows_mintClass :
    Follows levels levels Eq (Eval.mintClass naming binding) (Eval.mintClass naming binding) := by
  refine follows_mint.bind_same fun name => ?_
  intro state state' value final alike run
  cases run
  refine ⟨_, _, rfl, rfl, ?_⟩
  exact ⟨alike.names, congrArg (· ++ [name]) alike.classNames, alike.bindings⟩

/-- Recording a text succeeds whatever the text is, and the outputs need not be alike. -/
theorem follows_recordText {text other : String} :
    Follows levels levels Eq (Eval.recordText text) (Eval.recordText other) := by
  intro state state' value final alike run
  cases run
  exact ⟨_, _, rfl, rfl, alike.names, alike.classNames, alike.bindings⟩

/-- A style object that can be recorded is replaced by one that can be recorded too. Selectors and
conditions do not matter here: they decide what is written, not whether it is. -/
theorem follows_recordStyle {selector other : String} {conditions others : List String}
    {rule changed : Entries} (recordable : Recordable rule → Recordable changed) :
    Follows levels levels Eq (Eval.recordStyle selector conditions rule)
      (Eval.recordStyle other others changed) := by
  intro state state' value final alike run
  have holds : Recordable rule := (records_recordStyle selector conditions rule state).1 ⟨_, run⟩
  obtain ⟨output, done⟩ := (records_recordStyle selector conditions rule state).2 holds
  obtain ⟨output', done'⟩ := (records_recordStyle other others changed state').2 (recordable holds)
  cases run.symm.trans done
  exact ⟨_, _, done', rfl, alike.names, alike.classNames, alike.bindings⟩

/-- A selector is resolved with the class names so far, which are the same in both. -/
theorem follows_resolveSelector {selector : String} :
    Follows levels levels Eq (Eval.resolveSelector selector) (Eval.resolveSelector selector) := by
  intro state state' value final alike run
  cases run
  exact ⟨_, _, rfl, by rw [alike.classNames], alike⟩

/-- A name has values in both that differ at most as its level allows, or in neither. -/
theorem follows_lookup {name : String} :
    Follows levels levels (At (levels name)) (Eval.lookup name) (Eval.lookup name) := by
  refine .get fun state state' alike => ?_
  have here := alike.bindings name
  generalize state.bindings.get? name = found, state'.bindings.get? name = other at here
  cases here with
  | none => exact .fail
  | some here => exact .pure here

/-- An argument that is asked for its text is the same in both, so it has a text in both or in
neither. -/
theorem follows_argumentText {value : Option Value} {fault : Fault} :
    Follows levels levels Eq (Eval.argumentText value fault) (Eval.argumentText value fault) := by
  unfold Eval.argumentText
  cases value.bind Value.asText? with
  | none => exact .fail
  | some text => exact .pure rfl

end Steps

/-! ## Themes -/

section Themes

variable {naming : Naming}

mutual

/-- Contracts are made of the same tokens, so the two are the same, variable by variable. -/
theorem follows_contract {binding : Option String} : ∀ tokens,
    Follows levels levels Eq (Theme.contract naming binding tokens)
      (Theme.contract naming binding tokens)
  | .object entries => by
    rw [Theme.contract]
    exact (follows_contractEntries entries).bind_same fun made => .pure rfl
  | .array _ => by
    rw [Theme.contract]
    exact .fail
  | .text _ | .number _ | .classes _ | .undefined | .unresolved _ => by
    simp only [Theme.contract]
    exact follows_mint.bind_same fun name => .pure rfl

/-- The entries of a tree of tokens, one after the other. The names of their variables are numbered
in the same order. -/
theorem follows_contractEntries {binding : Option String} : ∀ entries,
    Follows levels levels Eq (Theme.contractEntries naming binding entries)
      (Theme.contractEntries naming binding entries)
  | [] => by
    rw [Theme.contractEntries]
    exact .pure rfl
  | (key, value) :: rest => by
    rw [Theme.contractEntries]
    refine (follows_contract value).bind_same fun part => ?_
    exact (follows_contractEntries rest).bind_same fun more => .pure rfl

end

/-- A computation that does not look at the state follows itself. -/
theorem follows_lift {α : Type} {result : Except Fault α} :
    Follows levels levels Eq (Eval.lift result) (Eval.lift result) :=
  .lift fun value found => ⟨value, found, rfl⟩

/-- Recording what was assigned does the same on both sides. -/
theorem follows_recordAssigned {selector : String} {assigned : Entries} :
    Follows levels levels Eq (Theme.recordAssigned selector assigned)
      (Theme.recordAssigned selector assigned) :=
  follows_recordStyle id

/-- A theme of the same contract and the same tokens has the same class in both. Tokens that may be
missing are not looked at here, since assigning them is asked to be the same. -/
theorem follows_themeClass {binding : Option String} {contract tokens : Value} :
    Follows levels levels Eq (Theme.themeClass naming binding contract tokens)
      (Theme.themeClass naming binding contract tokens) := by
  refine follows_lift.bind_same fun assigned => ?_
  refine follows_mintClass.bind_same fun name => ?_
  exact follows_recordAssigned.bind_same fun _ => .pure rfl

end Themes

/-! ## Styles -/

section Styles

open Eval (StyleParts)

/-- The parts of a style stand in the place of others. Exact parts are composed of the same
classes. -/
structure Stands (exact : Bool) (parts others : StyleParts) : Prop where
  composed : exact = true → others.composed = parts.composed
  nodup : others.merged.NodupKeys
  within : others.merged.Within parts.merged

namespace Stands

variable {exact : Bool} {parts others more : StyleParts}

/-- One part of a style stands in for another. An object adds entries that stand in for those of the
other, a class keeps its place in the composition if the parts are exact. -/
theorem add (stands : Stands exact parts others) {value changed : Value}
    (replaces : At .rule value changed) (added : parts.add value = .ok more) :
    ∃ moreOthers, others.add changed = .ok moreOthers ∧ Stands exact more moreOthers := by
  cases replaces.inside rfl with
  | array _ _ => cases added
  | object _ entries =>
    cases added
    exact ⟨_, rfl, stands.composed, stands.nodup.extend _, stands.within.extend entries⟩
  | same =>
    cases value with
    | text _ => cases added
    | number _ => cases added
    | array _ => cases added
    | classes names =>
      cases added
      exact ⟨_, rfl, fun holds => congrArg (· ++ [names]) (stands.composed holds), stands.nodup,
        stands.within⟩
    | object entries =>
      cases added
      exact ⟨_, rfl, stands.composed, stands.nodup.extend _,
        stands.within.extend (.refl entries)⟩
    | undefined => cases added; exact ⟨_, rfl, stands⟩
    | unresolved _ => cases added; exact ⟨_, rfl, stands⟩

/-- The parts of a style, one after the other, by induction on the list. -/
theorem foldlM {items changed : List Value} (stands : Stands exact parts others)
    (replaced : AtItems (fun _ => .rule) items changed)
    (added : items.foldlM StyleParts.add parts = .ok more) :
    ∃ moreOthers, changed.foldlM StyleParts.add others = .ok moreOthers ∧
      Stands exact more moreOthers := by
  induction items generalizing changed parts others with
  | nil =>
    cases replaced
    cases added
    exact ⟨others, rfl, stands⟩
  | cons item items ih =>
    cases replaced with
    | cons here rest =>
      rw [List.foldlM_cons] at added
      obtain ⟨between, first, remaining⟩ := bind_eq_ok_iff.mp added
      obtain ⟨between', first', stands⟩ := stands.add here first
      obtain ⟨final, remaining', stands⟩ := ih stands rest remaining
      rw [List.foldlM_cons]
      exact ⟨final, bind_eq_ok_iff.mpr ⟨between', first', remaining'⟩, stands⟩

end Stands

/-- Before any part was added, nothing stands in for nothing. -/
theorem stands_empty {exact : Bool} : Stands exact {} {} :=
  ⟨fun _ => rfl, .nil, fun _ _ found => nomatch found⟩

/-- Nothing stands in the place of whatever comes first. -/
theorem stands_lost {parts : StyleParts} : Stands false parts {} :=
  ⟨nofun, .nil, fun _ _ found => nomatch found⟩

/-- The first part of a style may be lost. -/
theorem stands_first {value changed : Value} {parts : StyleParts}
    (replaces : At .loose value changed) (added : StyleParts.add {} value = .ok parts) :
    ∃ others, StyleParts.add {} changed = .ok others ∧ Stands false parts others := by
  cases replaces with
  | lost _ => exact ⟨_, rfl, stands_lost⟩
  | text _ => cases added
  | classes _ =>
    cases added
    exact ⟨_, rfl, nofun, .nil, fun _ _ found => nomatch found⟩
  | object isNested _ => cases isNested
  | array isNested _ => cases isNested
  | same =>
    exact (stands_empty : Stands false {} {}).add .same added

/-- What a style is made of. -/
def givenParts : Value → List Value
  | .array items => items
  | other => [other]

/-- A list is a style with these parts, and everything else a style with one part, so both sides
have the same number of parts. -/
theorem At.givenParts {rule changed : Value} (replaces : At .rule rule changed) :
    AtItems (fun _ => .rule) (givenParts rule) (givenParts changed) := by
  cases replaces.inside rfl with
  | same => exact .refl _
  | object isNested entries => exact .cons (.object isNested entries) .nil
  | array _ items => exact items

/-- What a style is made of when its first part may be lost. A later part that is lost could uncover
entries of the parts before it, and these need not be recordable. -/
inductive Composed : Value → Value → Prop
  | lost {value other : Value} (changed : At .loose value other) : Composed value other
  | parts {value other : Value} {items others : List Value} (first : At .loose value other)
      (rest : AtItems (fun _ => .rule) items others) :
      Composed (.array (value :: items)) (.array (other :: others))

/-- The classes of two styles, which are equal if they are exact. -/
def SameClasses (exact : Bool) (value other : Value) : Prop :=
  ∃ names others, value = .classes names ∧ other = .classes others ∧ (exact = true → names = others)

/-- The style function with its parts as a list of their own, which is what is compared. -/
theorem style_eq_givenParts (naming : Naming) (binding : Option String) (rule : Value) :
    Eval.style naming binding rule = (do
      let name ← Eval.mintClass naming binding
      let parts ← Eval.lift ((givenParts rule).foldlM StyleParts.add {})
      Eval.recordStyle ("." ++ name) [] parts.merged
      pure (.classes (" ".intercalate (parts.composed ++ [name])))) := by
  cases rule <;> rfl

/-- Two styles follow each other if their parts stand in for each other: the class is generated
before the parts are looked at, and the entries that are merged in the end can be recorded in both.
-/
theorem follows_style_of_stands {naming : Naming} {binding : Option String} (exact : Bool)
    {rule changed : Value}
    (stands : ∀ parts, (givenParts rule).foldlM StyleParts.add {} = .ok parts →
      ∃ others, (givenParts changed).foldlM StyleParts.add {} = .ok others ∧
        Stands exact parts others) :
    Follows levels levels (SameClasses exact) (Eval.style naming binding rule)
      (Eval.style naming binding changed) := by
  rw [style_eq_givenParts, style_eq_givenParts]
  refine follows_mintClass.bind_same fun name => ?_
  refine Follows.bind (.lift stands) fun parts others stands => ?_
  refine (follows_recordStyle fun recordable => recordable.within stands.nodup stands.within).bind
    fun _ _ _ => .pure ⟨_, _, rfl, rfl, fun holds => by rw [stands.composed holds]⟩

/-- **A style whose values change** is still a style, of the same classes. -/
theorem follows_style {naming : Naming} {binding : Option String} {rule changed : Value}
    (replaces : At .rule rule changed) :
    Follows levels levels Eq (Eval.style naming binding rule)
      (Eval.style naming binding changed) := by
  refine (follows_style_of_stands true fun parts added =>
    stands_empty.foldlM replaces.givenParts added).mono ?_
  rintro _ _ ⟨names, others, rfl, rfl, same⟩
  exact congrArg Value.classes (same rfl)

/-- **A style that loses the first part that it is composed of** is still a style. Its own class is
generated all the same, so only the classes that it composes are fewer. -/
theorem follows_style_composed {naming : Naming} {binding : Option String} {rule changed : Value}
    (replaces : Composed rule changed) :
    Follows levels levels (At .loose) (Eval.style naming binding rule)
      (Eval.style naming binding changed) := by
  refine (follows_style_of_stands false fun parts added => ?_).mono ?_
  · cases replaces with
    | parts first rest =>
      obtain ⟨between, added, remaining⟩ := bind_eq_ok_iff.mp added
      obtain ⟨between', added', stands⟩ := stands_first first added
      obtain ⟨others, remaining', stands⟩ := stands.foldlM rest remaining
      exact ⟨others, bind_eq_ok_iff.mpr ⟨between', added', remaining'⟩, stands⟩
    | lost replaces =>
      cases replaces with
      | same => exact stands_empty.foldlM (.refl _) added
      | lost _ => exact ⟨_, rfl, stands_lost⟩
      | text _ => cases added
      | classes isOpen => exact stands_first (.classes isOpen) added
      | object isNested _ => cases isNested
      | array isNested _ => cases isNested
  · rintro _ _ ⟨names, others, rfl, rfl, -⟩
    exact .classes rfl

/-- Where an object is asked for, its entries may change. Anything else is a fault, the same one in
both. -/
theorem follows_ofObject {α β : Type} {related : α → β → Prop} {form : Form} (fault : Fault)
    (closed : form.isOpen = false) {next : Entries → Eval α} {nextOther : Entries → Eval β}
    (follows : ∀ entries others, AtEntries form entries others →
      Follows levels levels related (next entries) (nextOther others)) {value other : Value} :
    At form value other →
      Follows levels levels related
        (match value with
          | .object entries => next entries
          | _ => Eval.fail fault)
        (match other with
          | .object entries => nextOther entries
          | _ => Eval.fail fault) := by
  intro replaces
  cases replaces.inside closed with
  | array _ _ => exact .fail
  | object _ changed => exact follows _ _ changed
  | same =>
    cases value with
    | object entries => exact follows _ _ (.refl entries)
    | _ => exact .fail

/-- A function that asks for an object gets one in both evaluations or in neither, since a form that
is closed does not let an object become anything else. -/
theorem follows_ofArgument {α : Type} {form : Form} (fault : Fault) (closed : form.isOpen = false)
    {next nextOther : Entries → Eval α}
    (follows : ∀ entries others, AtEntries form entries others →
      Follows levels levels Eq (next entries) (nextOther others)) {value other : Option Value} :
    Option.Rel (At form) value other →
      Follows levels levels Eq
        (match value with
          | some (.object entries) => next entries
          | _ => Eval.fail fault)
        (match other with
          | some (.object entries) => nextOther entries
          | _ => Eval.fail fault) := by
  intro replaces
  cases replaces with
  | none => exact .fail
  | @some value other here =>
    have plain := follows_ofObject fault closed follows here
    cases value with
    | object entries => cases other <;> exact plain
    | _ => exact .fail

/-- Styles by their keys: the keys stay the same, and each style may change as a style may. No style
changes how many names are made, so the names of the others stay. -/
theorem follows_variants {naming : Naming} {binding : Option String} {entries others : Entries}
    (changed : AtEntries .rules entries others) :
    Follows levels levels Eq (Eval.variants naming binding entries)
      (Eval.variants naming binding others) := by
  induction entries generalizing others with
  | nil =>
    cases changed
    exact .pure rfl
  | cons entry entries ih =>
    cases changed with
    | cons here rest =>
      refine (follows_style here).bind_same fun made => ?_
      exact (ih rest).bind_same fun more => .pure rfl

end Styles

/-! ## Animations and fonts -/

/-- An animation has a text if each of its steps is an object that can be declared. -/
theorem succeeds_frameTexts_cons_iff {step : String} {rule frames : Entries} :
    Succeeds (Eval.frameTexts ((step, .object rule) :: frames)) ↔
      Succeeds (declarations rule) ∧ Succeeds (Eval.frameTexts frames) := by
  rw [Eval.frameTexts, succeeds_both_iff]

/-- Steps that change as style objects may still have a text, by induction on the steps. A step is
an object in both, and what may be lost from it is a declaration. -/
theorem succeeds_frameTexts {frames others : Entries} (changed : AtEntries .rules frames others)
    (succeeds : Succeeds (Eval.frameTexts frames)) : Succeeds (Eval.frameTexts others) := by
  induction frames generalizing others with
  | nil =>
    cases changed
    exact succeeds
  | cons frame frames ih =>
    obtain ⟨step, value⟩ := frame
    cases value with
    | object rule =>
      rw [succeeds_frameTexts_cons_iff] at succeeds
      cases changed with
      | cons here rest =>
        cases At.inside here rfl with
        | same => exact succeeds_frameTexts_cons_iff.mpr ⟨succeeds.1, ih rest succeeds.2⟩
        | object _ entries =>
          exact succeeds_frameTexts_cons_iff.mpr
            ⟨succeeds_declarations_changed entries succeeds.1, ih rest succeeds.2⟩
    | _ => cases succeeds with | intro _ found => cases found

/-- The texts of two animations need not be the same; both are there. -/
theorem follows_frameTexts {frames others : Entries} (changed : AtEntries .rules frames others) :
    Follows levels levels (fun _ _ => True) (Eval.lift (Eval.frameTexts frames))
      (Eval.lift (Eval.frameTexts others)) := by
  refine .lift fun text found => ?_
  obtain ⟨other, done⟩ := succeeds_frameTexts changed ⟨text, found⟩
  exact ⟨other, done, trivial⟩

/-- A font face that may lose declarations is recorded in both, with whatever is left of it. -/
theorem follows_recordFace {family : String} {face changed : Value}
    (replaces : At .rule face changed) :
    Follows levels levels Eq (Eval.recordFace family face) (Eval.recordFace family changed) := by
  refine follows_ofObject _ rfl (fun rule others changed => ?_) replaces
  have declares : Follows levels levels (fun _ _ => True) (Eval.lift (declarations rule))
      (Eval.lift (declarations others)) := by
    refine .lift fun found here => ?_
    obtain ⟨other, done⟩ := succeeds_declarations_changed changed ⟨found, here⟩
    exact ⟨other, done, trivial⟩
  exact declares.bind fun _ _ _ => follows_recordText

/-- Font faces one after the other, with the same number on both sides. -/
theorem follows_recordFaces {family : String} {faces others : List Value}
    (changed : AtItems (fun _ => .rule) faces others) :
    Follows levels levels Eq (faces.forM (Eval.recordFace family))
      (others.forM (Eval.recordFace family)) := by
  induction faces generalizing others with
  | nil =>
    cases changed
    exact .pure rfl
  | cons face faces ih =>
    cases changed with
    | cons here rest => exact (follows_recordFace here).bind fun _ _ _ => ih rest

/-! ## Calls -/

/-- The form of a parameter of a style function. The tokens of themes are fixed: a contract has a
variable for each leaf, so with another shape it would take other names. -/
def Api.parameter : Api → Nat → Form
  | .style, 0 | .fontFace, 0 | .globalStyle, 1 | .globalFontFace, 1 => .rule
  | .styleVariants, 0 | .keyframes, 0 => .rules
  | _, _ => .fixed

/-- Arguments are looked at by their positions, and each position has its own form. -/
theorem AtItems.getElem? {forms : Nat → Form} {items others : List Value}
    (changed : AtItems forms items others) (n : Nat) :
    Option.Rel (At (forms n)) items[n]? others[n]? := by
  induction items generalizing forms others n with
  | nil =>
    cases changed
    exact .none
  | cons item items ih =>
    cases changed with
    | cons here rest =>
      cases n with
      | zero => exact .some here
      | succ n => exact ih rest n

/-- An argument that may not change is the same, if there is one. -/
theorem eq_of_rel_fixed {value other : Option Value} (here : Option.Rel (At .fixed) value other) :
    other = value := by
  cases here with
  | none => rfl
  | some here => rw [here.eq_of_fixed]

/-- A position whose form lets nothing change has the same argument on both sides. -/
theorem AtItems.getElem?_eq {forms : Nat → Form} {items others : List Value}
    (changed : AtItems forms items others) {n : Nat} (fixed : forms n = .fixed) :
    others[n]? = items[n]? :=
  eq_of_rel_fixed (fixed ▸ changed.getElem? n)

/-- Where no item may change none does. -/
theorem AtItems.eq_of_fixed {forms : Nat → Form} {items others : List Value}
    (changed : AtItems forms items others) (fixed : ∀ n, forms n = .fixed) : others = items :=
  List.ext_getElem? fun n => changed.getElem?_eq (fixed n)

/-- An argument that is not given counts as undefined, on both sides. -/
theorem At.of_rel {form : Form} {value other : Option Value}
    (here : Option.Rel (At form) value other) :
    At form (value.getD .undefined) (other.getD .undefined) := by
  cases here with
  | none => exact .same
  | some here => exact here

section Calls

variable {naming : Naming} {binding : Option String}

/-- **A style function whose arguments change** as the forms of its parameters allow gives the same
result. -/
theorem follows_callApi {api : Api} {arguments others : List Value}
    (changed : AtItems api.parameter arguments others) :
    Follows levels levels Eq (Eval.callApi naming binding api arguments)
      (Eval.callApi naming binding api others) := by
  have first := changed.getElem? 0
  have second := changed.getElem? 1
  unfold Eval.callApi
  generalize arguments[0]? = leading, others[0]? = leading' at first ⊢
  generalize arguments[1]? = following, others[1]? = following' at second ⊢
  cases api with
  | style =>
    cases eq_of_rel_fixed second
    exact follows_style (.of_rel first)
  | styleVariants =>
    refine follows_ofObject _ rfl (fun entries others changed => ?_) (At.of_rel first)
    exact (follows_variants changed).bind_same fun made => .pure rfl
  | globalStyle =>
    cases eq_of_rel_fixed first
    refine follows_argumentText.bind_same fun selector => ?_
    refine follows_ofArgument _ rfl (fun entries others changed => ?_) second
    refine follows_resolveSelector.bind_same fun resolved => ?_
    exact (follows_recordStyle fun recordable => recordable.changed changed).bind_same
      fun _ => .pure rfl
  | keyframes =>
    refine follows_ofObject _ rfl (fun frames others changed => ?_) (At.of_rel first)
    refine follows_mint.bind_same fun name => ?_
    refine (follows_frameTexts changed).bind fun _ _ _ => ?_
    exact follows_recordText.bind_same fun _ => .pure rfl
  | fontFace =>
    refine follows_mint.bind_same fun name => ?_
    refine (follows_recordFaces ?_).bind_same fun _ => .pure rfl
    cases first with
    | none => exact .nil
    | @some face changed replaces =>
      cases replaces.inside rfl with
      | same => exact .refl _
      | object _ _ => exact replaces.givenParts
      | array _ items => exact items
  | globalFontFace =>
    cases eq_of_rel_fixed first
    refine follows_argumentText.bind_same fun name => ?_
    exact (follows_recordFace (.of_rel second)).bind_same fun _ => .pure rfl
  | createVar => exact follows_mint.bind_same fun name => .pure rfl
  | fallbackVar =>
    cases changed.eq_of_fixed fun _ => rfl
    refine follows_lift.bind_same fun texts => ?_
    cases texts.getLast? with
    | none => exact .fail
    | some last => exact .pure rfl
  | createThemeContract =>
    cases eq_of_rel_fixed first
    exact follows_contract _
  | assignVars =>
    cases eq_of_rel_fixed first
    cases eq_of_rel_fixed second
    exact follows_lift.bind_same fun assigned => .pure rfl
  | createTheme =>
    cases eq_of_rel_fixed first
    cases eq_of_rel_fixed second
    dsimp only
    split
    next tokens =>
      exact follows_themeClass.bind_same fun name => .pure rfl
    next =>
      refine (follows_contract _).bind_same fun made => ?_
      exact follows_themeClass.bind_same fun name => .pure rfl
  | createGlobalTheme =>
    cases changed.eq_of_fixed fun _ => rfl
    cases eq_of_rel_fixed first
    cases eq_of_rel_fixed second
    refine follows_argumentText.bind_same fun selector => ?_
    dsimp only
    split
    next tokens =>
      refine follows_lift.bind_same fun assigned => ?_
      exact follows_recordAssigned.bind_same fun _ => .pure rfl
    next =>
      refine (follows_contract _).bind_same fun made => ?_
      refine follows_lift.bind_same fun assigned => ?_
      exact follows_recordAssigned.bind_same fun _ => .pure rfl

/-- **A style that is called with parts**, of which the first may be lost. -/
theorem follows_callApi_composed {rule changed : Value} {rest : List Value}
    (replaces : Composed rule changed) :
    Follows levels levels (At .loose) (Eval.callApi naming binding .style (rule :: rest))
      (Eval.callApi naming binding .style (changed :: rest)) :=
  follows_style_composed replaces

end Calls

end StyleGraph.Static
