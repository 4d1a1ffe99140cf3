import StyleGraph.Proofs.Static.Follow

/-!
# How the value of an expression may change

`keeps` decides from the text of an expression whether its value changes only as a form allows, if
the values of names change as their levels allow. A name whose value may be lost can stand wherever
a style object has a value, in templates and as the first part of a style, and members of it and
calls of it are as good as the name itself. It can be no operand, no key and nothing that is spread.

An expression that passes is evaluated with the other values too, and its value changes as it should
(`follows_eval`). A template whose part is lost does not evaluate the parts after it. So the parts
of such a template have to leave the state as it is (`isQuiet`).
-/

set_option autoImplicit false

namespace StyleGraph.Static

open Script (Expression Part Property Key Item)

/-! ## Forms of expressions -/

namespace Form

/-- The form of an entry of an object under any key. -/
def unknownEntry : Form → Form
  | .fixed | .loose | .rule => .fixed
  | .rules => .rule
  | .parts | .any => .any

/-- The form of the entry of an object under a key that may not be known. -/
def entryOf (form : Form) : Key → Form
  | .named name | .computed (.text name) => form.entry name
  | .computed _ => form.unknownEntry

/-- The form of an object that is spread into another one. It has to stay an object. -/
def spread : Form → Form
  | .fixed | .loose => .fixed
  | .any => .parts
  | form => form

/-- The form of an entry whose key is not known is at most that of the entry with any key. So a
computed key may turn out to be any. -/
theorem unknownEntry_le (form : Form) (key : String) :
    form.unknownEntry.le (form.entry key) = true := by
  cases form <;> rfl

/-- Entries that are spread into an object keep at most the form of the object. -/
theorem spread_le (form : Form) : form.spread.le form = true := by
  cases form <;> rfl

/-- What is spread has to stay an object, so its form is not open. -/
theorem isOpen_spread (form : Form) : form.spread.isOpen = false := by
  cases form <;> rfl

/-- An open form allows everything that the loose one allows. -/
theorem loose_le {form : Form} (isOpen : form.isOpen = true) : Form.loose.le form = true := by
  cases form <;> first | rfl | cases isOpen

/-- Entries of an open form may change no more than the whole may. -/
theorem entry_le_self {form : Form} (isOpen : form.isOpen = true) (key : String) :
    (form.entry key).le form = true := by
  cases form <;> first | rfl | cases isOpen

end Form

/-- Expressions whose evaluation leaves the state as it is. -/
def isQuiet : Expression → Bool
  | .text _ | .number _ | .null | .name _ => true
  | .negate operand => isQuiet operand
  | .member object _ => isQuiet object
  | .index object key => isQuiet object && isQuiet key
  | .call (.name callee) _ => (Api.ofName? callee).isNone
  | .group inner => isQuiet inner
  | _ => false

/-- Whether the expression of a part of a template leaves the state as it is. -/
def isQuietPart : Part → Bool
  | .mk value _ => isQuiet value

mutual

/-- Whether the value of an expression changes only as a form allows, if the values of names change
as their levels allow. -/
def keeps (levels : Levels) (form : Form) : Expression → Bool
  | .name ident => ident = "undefined" || (levels ident).le form
  | .negate operand => keeps levels .fixed operand
  | .template _ parts =>
    keepsParts levels .fixed parts ||
      (form.isOpen && keepsParts levels .any parts && parts.all isQuietPart)
  | .object properties => keepsProperties levels form properties
  | .array items => keepsItems levels (fun _ => form.item) items
  | .member object _ => keeps levels .fixed object || (form.isOpen && keeps levels form object)
  | .index object key =>
    (keeps levels .fixed object || (form.isOpen && keeps levels form object)) &&
      keeps levels .fixed key
  | .call (.name callee) arguments =>
    match Api.ofName? callee with
    | none => form.isOpen || levels callee = .fixed
    | some api =>
      levels callee = .fixed && (keepsItems levels api.parameter arguments ||
        (api = .style && form.isOpen && keepsComposed levels arguments))
  | .group inner => keeps levels form inner
  | _ => true

/-- The test of `keeps` for the parts of a template. -/
def keepsParts (levels : Levels) (form : Form) : List Part → Bool
  | [] => true
  | .mk value _ :: rest => keeps levels form value && keepsParts levels form rest

/-- The test of `keeps` for the properties of an object. -/
def keepsProperties (levels : Levels) (form : Form) : List Property → Bool
  | [] => true
  | .keyed key value :: rest =>
    keepsKey levels key && keeps levels (form.entryOf key) value && keepsProperties levels form rest
  | .spread value :: rest => keeps levels form.spread value && keepsProperties levels form rest

/-- Whether a key stays the same. -/
def keepsKey (levels : Levels) : Key → Bool
  | .named _ => true
  | .computed key => keeps levels .fixed key

/-- The test of `keeps` for items, each with the form of its place. -/
def keepsItems (levels : Levels) (forms : Nat → Form) : List Item → Bool
  | [] => true
  | .single value :: rest =>
    keeps levels (forms 0) value && keepsItems levels (fun n => forms (n + 1)) rest
  | .irregular :: _ => true

/-- Whether the arguments of a style change only by what the style is composed of. -/
def keepsComposed (levels : Levels) : List Item → Bool
  | .single rule :: rest =>
    (keeps levels .loose rule || keepsFirst levels rule) &&
      keepsItems levels (fun _ => .fixed) rest
  | _ => false

/-- Whether a list of the parts of a style changes only by the loss of the first one. -/
def keepsFirst (levels : Levels) : Expression → Bool
  | .array (.single first :: parts) =>
    keeps levels .loose first && keepsItems levels (fun _ => .rule) parts
  | _ => false

end

/-! ## Steps that leave the state -/

/-- A step leaves the state as it is. -/
def Quiet {α : Type} (step : Eval α) : Prop :=
  ∀ state value final, step state = .ok (value, final) → final = state

namespace Quiet

variable {α β : Type}

theorem pure (value : α) : Quiet (Pure.pure value) := fun _ _ _ run => by cases run; rfl

theorem fail (fault : Fault) : Quiet (Eval.fail fault : Eval α) := fun _ _ _ run => nomatch run

/-- Steps that leave the state alone do so one after the other. -/
theorem bind {step : Eval α} {next : α → Eval β} (first : Quiet step)
    (rest : ∀ value, Quiet (next value)) : Quiet (step >>= next) := by
  intro state result final run
  obtain ⟨⟨value, between⟩, done, remaining⟩ := bind_eq_ok_iff.mp run
  rw [rest value between result final remaining, first state value between done]

/-- What fails in the end has no result. -/
theorem bind_fail {step : Eval α} {fault : Fault} :
    Quiet (step >>= fun _ => (Eval.fail fault : Eval β)) := by
  intro state result final run
  obtain ⟨_, _, remaining⟩ := bind_eq_ok_iff.mp run
  cases remaining

/-- A step may look at the state without changing it. -/
theorem get {next : State → Eval β} (rest : ∀ state, Quiet (next state)) :
    Quiet (do next (← MonadState.get)) :=
  fun state value final run => rest state state value final run

/-- A member is looked up in a value that is there already. -/
theorem memberOf (object : Value) (key : String) : Quiet (Eval.memberOf object key) := by
  unfold Eval.memberOf
  split
  next => exact .pure _
  next =>
    split
    next => exact .pure _
    next => exact .fail _
  next => exact .fail _

end Quiet

variable {naming : Naming}

/-- **An expression without calls leaves the state alone**, by the recursion of the evaluation. Only
calls generate names or record anything, and only declarations bind names. -/
theorem quiet_eval : ∀ (expression : Expression) (binding : Option String),
    isQuiet expression = true → Quiet (Eval.eval naming binding expression)
  | .text _, _, _ | .number _, _, _ | .null, _, _ => by
    simp only [Eval.eval]
    exact .pure _
  | .name ident, _, _ => by
    rw [Eval.eval]
    split
    next => exact .pure _
    next =>
      refine .get fun state => ?_
      split
      next => exact .pure _
      next => exact .fail _
  | .negate operand, _, quiet => by
    rw [Eval.eval]
    refine (quiet_eval operand none quiet).bind fun value => ?_
    split
    next => exact .pure _
    next => exact .fail _
  | .member object key, _, quiet => by
    rw [Eval.eval]
    exact (quiet_eval object none quiet).bind fun value => .memberOf value key
  | .index object key, _, quiet => by
    rw [isQuiet, Bool.and_eq_true] at quiet
    rw [Eval.eval]
    refine (quiet_eval object none quiet.1).bind fun value => ?_
    refine (quiet_eval key none quiet.2).bind fun name => ?_
    split
    next => exact .memberOf value _
    next => exact .fail _
  | .call (.name callee) arguments, _, quiet => by
    rw [isQuiet, Option.isNone_iff_eq_none] at quiet
    rw [Eval.eval]
    refine .get fun state => ?_
    split
    next => exact .pure _
    next =>
      rw [quiet]
      exact .bind_fail
  | .group inner, binding, quiet => by
    rw [Eval.eval]
    exact quiet_eval inner binding quiet

/-- The parts of a template without calls. They generate nothing, since only calls do. -/
theorem quiet_evalParts {parts : List Part} (quiet : parts.all isQuietPart = true)
    (text : String) : Quiet (Eval.evalParts naming text parts) := by
  induction parts generalizing text with
  | nil =>
    rw [Eval.evalParts]
    exact .pure _
  | cons part parts ih =>
    obtain ⟨value, following⟩ := part
    rw [List.all_cons, Bool.and_eq_true] at quiet
    rw [Eval.evalParts]
    refine (quiet_eval value none quiet.1).bind fun found => ?_
    split
    next => exact .pure _
    next =>
      split
      next => exact ih quiet.2 _
      next => exact .fail _

/-! ## Evaluations that follow -/

variable {levels : Levels}

/-- What is passed over may be lost. -/
theorem follows_lost {form : Form} {step : Eval Value} (quiet : Quiet step)
    (isOpen : form.isOpen = true) (origin : String) :
    Follows levels levels (At form) step (pure (.unresolved origin)) := by
  intro state state' value final alike run
  rw [quiet state value final run]
  exact ⟨_, state', rfl, .lost isOpen, alike⟩

/-- A list whose items may not change is the same. -/
theorem AtItems.eq_of_closed {items others : List Value}
    (changed : AtItems (fun _ => .fixed) items others) : others = items :=
  changed.eq_of_fixed fun _ => rfl

/-- A list changes as its form allows if its items do. Lists of a closed form are the same. -/
theorem At.of_items {form : Form} {items others : List Value}
    (changed : AtItems (fun _ => form.item) items others) :
    At form (.array items) (.array others) := by
  cases form with
  | fixed => exact changed.eq_of_closed ▸ .same
  | loose => exact changed.eq_of_closed ▸ .same
  | _ => exact .array rfl changed

/-- An object whose entries may not change is the same. -/
theorem AtEntries.eq_of_closed {form : Form} {entries others : Entries}
    (closed : ∀ key, form.entry key = .fixed) (changed : AtEntries form entries others) :
    others = entries := by
  induction entries generalizing others with
  | nil =>
    cases changed
    rfl
  | cons entry entries ih =>
    cases changed with
    | cons here rest =>
      rw [closed] at here
      rw [here.eq_of_fixed, ih rest]

/-- An object changes as its form allows if its entries do. -/
theorem At.of_entries {form : Form} {entries others : Entries}
    (changed : AtEntries form entries others) : At form (.object entries) (.object others) := by
  cases form with
  | fixed => exact changed.eq_of_closed (fun _ => rfl) ▸ .same
  | loose => exact changed.eq_of_closed (fun _ => rfl) ▸ .same
  | _ => exact .object rfl changed

/-- A member of the same value is the same member. -/
theorem follows_memberOf_self (object : Value) (key : String) :
    Follows levels levels Eq (Eval.memberOf object key) (Eval.memberOf object key) := by
  unfold Eval.memberOf
  split
  next => exact .pure rfl
  next =>
    split
    next => exact .pure rfl
    next => exact .fail
  next => exact .fail

/-- A member of what stays the same does so, and a member of what may be lost may be lost. A text or
a class has no members in either run. -/
theorem follows_memberOf {form : Form} {object other : Value} (key : String)
    (replaces : At .fixed object other ∨ form.isOpen = true ∧ At form object other) :
    Follows levels levels (At form) (Eval.memberOf object key) (Eval.memberOf other key) := by
  have itself : Follows levels levels (At form) (Eval.memberOf object key)
      (Eval.memberOf object key) := (follows_memberOf_self object key).mono fun _ _ => .of_eq
  rcases replaces with replaces | ⟨isOpen, replaces⟩
  · cases replaces.eq_of_fixed
    exact itself
  cases replaces with
  | same => exact itself
  | lost _ => exact follows_lost (.memberOf object key) isOpen _
  | text _ => exact .fail
  | classes _ => exact .fail
  | array _ _ => exact .fail
  | @object _ entries others _ changed =>
    have here := changed.get? key
    simp only [Eval.memberOf]
    generalize entries.get? key = found, others.get? key = found' at here
    cases here with
    | none => exact .fail
    | some here => exact .pure (here.mono (Form.entry_le_self isOpen key))

/-- The object of a member stays the same, or may be lost with the member. -/
theorem follows_object {form : Form} {step : Eval Value} {fixed loose : Prop}
    (same : fixed → Follows levels levels (At .fixed) step step)
    (lost : loose → Follows levels levels (At form) step step)
    (kept : fixed ∨ form.isOpen = true ∧ loose) :
    Follows levels levels
      (fun value other => At .fixed value other ∨ form.isOpen = true ∧ At form value other)
      step step := by
  rcases kept with kept | ⟨isOpen, kept⟩
  · exact (same kept).mono fun _ _ here => .inl here
  · exact (lost kept).mono fun _ _ here => .inr ⟨isOpen, here⟩

/-- The arguments of a style of which the first part may be lost. -/
inductive ComposedCall : List Value → List Value → Prop
  | intro {rule changed : Value} {rest : List Value} (replaces : Composed rule changed) :
      ComposedCall (rule :: rest) (changed :: rest)

mutual

/-- **An evaluation follows another one** in which the values of names are others, and the value of
an expression changes as it should. -/
theorem follows_eval : ∀ (expression : Expression) (binding : Option String) (form : Form),
    keeps levels form expression = true →
      Follows levels levels (At form) (Eval.eval naming binding expression)
        (Eval.eval naming binding expression)
  | .text _, _, _, _ | .number _, _, _, _ | .null, _, _, _ => by
    simp only [Eval.eval]
    exact .pure .same
  | .name ident, _, form, kept => by
    rw [keeps, Bool.or_eq_true, decide_eq_true_eq] at kept
    rw [Eval.eval]
    split
    next => exact .pure .same
    next other => exact follows_lookup.mono fun _ _ here => here.mono (kept.resolve_left other)
  | .negate operand, _, form, kept => by
    rw [Eval.eval]
    refine (follows_eval operand none .fixed kept).of_fixed.bind_same fun value => ?_
    split
    next => exact .pure .same
    next => exact .fail
  | .template head parts, _, form, kept => by
    rw [keeps, Bool.or_eq_true, Bool.and_eq_true, Bool.and_eq_true] at kept
    rw [Eval.eval]
    rcases kept with fixed | ⟨⟨isOpen, loose⟩, quiet⟩
    · exact (follows_evalParts_fixed parts head fixed).mono fun _ _ => .of_eq
    · exact follows_evalParts_any isOpen parts head head loose quiet
  | .object properties, _, form, kept => by
    rw [keeps] at kept
    rw [Eval.eval]
    exact (follows_evalProperties properties [] [] form kept .nil).bind
      fun _ _ changed => .pure (.of_entries changed)
  | .array items, _, form, kept => by
    rw [keeps] at kept
    rw [Eval.eval]
    exact (follows_evalItems items .irregularItem _ kept).bind
      fun _ _ changed => .pure (.of_items changed)
  | .member object key, _, form, kept => by
    rw [keeps, Bool.or_eq_true, Bool.and_eq_true] at kept
    rw [Eval.eval]
    exact (follows_object (follows_eval object none .fixed) (follows_eval object none form)
      kept).bind fun _ _ here => follows_memberOf key here
  | .index object key, _, form, kept => by
    rw [keeps, Bool.and_eq_true, Bool.or_eq_true, Bool.and_eq_true] at kept
    rw [Eval.eval]
    refine (follows_object (follows_eval object none .fixed) (follows_eval object none form)
      kept.1).bind fun _ _ here => ?_
    refine (follows_eval key none .fixed kept.2).of_fixed.bind_same fun name => ?_
    split
    next => exact follows_memberOf _ here
    next => exact .fail
  | .call (.name callee) arguments, binding, form, kept => by
    rw [keeps] at kept
    rw [Eval.eval]
    refine .get fun state state' alike => ?_
    have here := alike.bindings callee
    generalize state.bindings.get? callee = found, state'.bindings.get? callee = found' at here
    cases known : Api.ofName? callee with
    | none =>
      rw [known, Bool.or_eq_true, decide_eq_true_eq] at kept
      cases here with
      | none => exact .bind_fail
      | @some value value' here =>
        cases value with
        | unresolved origin =>
          obtain ⟨_, rfl⟩ := here.unresolved
          rcases kept with isOpen | fixed
          · exact .pure (.lost isOpen)
          · exact .pure (here.mono (fixed ▸ rfl))
        | _ => exact .bind_fail
    | some api =>
      rw [known, Bool.and_eq_true, decide_eq_true_eq, Bool.or_eq_true, Bool.and_eq_true,
        Bool.and_eq_true, decide_eq_true_eq] at kept
      rw [kept.1] at here
      cases eq_of_rel_fixed here
      have called : Follows levels levels (At form)
          (Eval.evalItems naming .spreadArgument arguments >>= Eval.callApi naming binding api)
          (Eval.evalItems naming .spreadArgument arguments >>= Eval.callApi naming binding api) := by
        rcases kept.2 with items | ⟨⟨rfl, isOpen⟩, composed⟩
        · exact (follows_evalItems arguments _ _ items).bind fun _ _ changed =>
            (follows_callApi changed).mono fun _ _ => .of_eq
        · refine (follows_evalComposed arguments _ composed).bind fun _ _ changed => ?_
          cases changed with
          | intro replaces =>
            exact (follows_callApi_composed replaces).mono
              fun _ _ here => here.mono (Form.loose_le isOpen)
      split
      next => exact .pure .same
      next => exact called
  | .call (.text _) _, _, _, _ | .call (.number _) _, _, _, _ | .call .null _, _, _, _
  | .call (.negate _) _, _, _, _ | .call (.template _ _) _, _, _, _ | .call (.object _) _, _, _, _
  | .call (.array _) _, _, _, _ | .call (.member _ _) _, _, _, _ | .call (.index _ _) _, _, _, _
  | .call (.call _ _) _, _, _, _ | .call (.group _) _, _, _, _ | .call .other _, _, _, _ => by
    simp only [Eval.eval]
    exact .fail
  | .group inner, binding, form, kept => by
    rw [keeps] at kept
    rw [Eval.eval]
    exact follows_eval inner binding form kept
  | .other, _, _, _ => by
    rw [Eval.eval]
    exact .fail

/-- A template whose parts may not change is the same text. The parts are evaluated in both runs, so
a call in one of them generates the same names. -/
theorem follows_evalParts_fixed : ∀ (parts : List Part) (text : String),
    keepsParts levels .fixed parts = true →
      Follows levels levels Eq (Eval.evalParts naming text parts) (Eval.evalParts naming text parts)
  | [], text, _ => by
    rw [Eval.evalParts]
    exact .pure rfl
  | .mk value following :: rest, text, kept => by
    rw [keepsParts, Bool.and_eq_true] at kept
    rw [Eval.evalParts]
    refine (follows_eval value none .fixed kept.1).of_fixed.bind_same fun part => ?_
    split
    next => exact .pure rfl
    next =>
      split
      next => exact follows_evalParts_fixed rest _ kept.2
      next => exact .fail

/-- A template with a part that may be unresolved may be unresolved as a whole, in one evaluation or
in the other. The parts behind it are then passed over on one side only, so they must not do
anything. -/
theorem follows_evalParts_any {form : Form} (isOpen : form.isOpen = true) :
    ∀ (parts : List Part) (text other : String), keepsParts levels .any parts = true →
      parts.all isQuietPart = true →
        Follows levels levels (At form) (Eval.evalParts naming text parts)
          (Eval.evalParts naming other parts)
  | [], text, other, _, _ => by
    rw [Eval.evalParts, Eval.evalParts]
    exact .pure (.text isOpen)
  | .mk value following :: rest, text, other, kept, quiet => by
    rw [keepsParts, Bool.and_eq_true] at kept
    rw [List.all_cons, Bool.and_eq_true] at quiet
    rw [Eval.evalParts, Eval.evalParts]
    refine (follows_eval value none .any kept.1).bind fun part part' here => ?_
    have more := fun text other => follows_evalParts_any isOpen rest text other kept.2 quiet.2
    have lost : ∀ text origin, Follows levels levels (At form) (Eval.evalParts naming text rest)
        (pure (.unresolved origin)) :=
      fun text => follows_lost (quiet_evalParts quiet.2 text) isOpen
    cases part with
    | unresolved _ =>
      obtain ⟨_, rfl⟩ := here.unresolved
      exact .pure (.lost isOpen)
    | text _ =>
      cases here with
      | same => exact more _ _
      | text _ => exact more _ _
      | lost _ => exact lost _ _
    | number _ =>
      cases here with
      | same => exact more _ _
      | lost _ => exact lost _ _
    | classes _ =>
      cases here with
      | same => exact more _ _
      | classes _ => exact more _ _
      | lost _ => exact lost _ _
    | _ => exact .fail

/-- The entries of an object, with the entries so far on both sides. A key is the same on both
sides, also if it is computed. -/
theorem follows_evalProperties : ∀ (properties : List Property) (entries others : Entries)
    (form : Form), keepsProperties levels form properties = true → AtEntries form entries others →
      Follows levels levels (AtEntries form) (Eval.evalProperties naming entries properties)
        (Eval.evalProperties naming others properties)
  | [], entries, others, form, _, here => by
    rw [Eval.evalProperties, Eval.evalProperties]
    exact .pure here
  | .keyed key value :: rest, entries, others, form, kept, here => by
    rw [keepsProperties, Bool.and_eq_true, Bool.and_eq_true] at kept
    rw [Eval.evalProperties, Eval.evalProperties]
    refine (follows_evalKey key form kept.1.1).bind fun name name' ⟨same, le⟩ => ?_
    subst same
    refine (follows_eval value none _ kept.1.2).bind fun _ _ changed => ?_
    exact follows_evalProperties rest _ _ form kept.2 (here.insert (changed.mono le))
  | .spread value :: rest, entries, others, form, kept, here => by
    rw [keepsProperties, Bool.and_eq_true] at kept
    rw [Eval.evalProperties, Eval.evalProperties]
    refine (follows_eval value none _ kept.1).bind fun _ _ changed => ?_
    refine follows_ofObject _ form.isOpen_spread (fun more moreOthers changed => ?_) changed
    exact follows_evalProperties rest _ _ form kept.2 (here.extend (changed.mono form.spread_le))

/-- A key may not change. What its entry may be is known for a key that is written down, and for a
computed one only what holds for all keys. -/
theorem follows_evalKey : ∀ (key : Key) (form : Form), keepsKey levels key = true →
    Follows levels levels
      (fun name other => name = other ∧ (form.entryOf key).le (form.entry name) = true)
      (Eval.evalKey naming key) (Eval.evalKey naming key)
  | .named name, form, _ => by
    rw [Eval.evalKey]
    exact .pure ⟨rfl, Form.le_refl _⟩
  | .computed key, form, kept => by
    rw [keepsKey] at kept
    rw [Eval.evalKey]
    have known : (∃ name, key = .text name) ∨
        form.entryOf (.computed key) = form.unknownEntry := by
      cases key <;> first | exact .inl ⟨_, rfl⟩ | exact .inr rfl
    rcases known with ⟨name, rfl⟩ | unknown
    · simp only [Eval.eval, pure_bind]
      exact .pure ⟨rfl, Form.le_refl _⟩
    · rw [unknown]
      refine (follows_eval key none .fixed kept).of_fixed.bind_same fun name => ?_
      split
      next => exact .pure ⟨rfl, form.unknownEntry_le _⟩
      next => exact .fail

/-- The items of a list, each with the form of its position. The induction is on the list, with the
forms counted on by one at each step. -/
theorem follows_evalItems : ∀ (items : List Item) (irregular : Fault) (forms : Nat → Form),
    keepsItems levels forms items = true →
      Follows levels levels (AtItems forms) (Eval.evalItems naming irregular items)
        (Eval.evalItems naming irregular items)
  | [], irregular, forms, _ => by
    rw [Eval.evalItems]
    exact .pure .nil
  | .single value :: rest, irregular, forms, kept => by
    rw [keepsItems, Bool.and_eq_true] at kept
    rw [Eval.evalItems]
    refine (follows_eval value none (forms 0) kept.1).bind fun item item' here => ?_
    exact (follows_evalItems rest irregular _ kept.2).bind fun _ _ more => .pure (.cons here more)
  | .irregular :: _, irregular, forms, _ => by
    rw [Eval.evalItems]
    exact .fail

/-- The arguments of a style whose first part may be lost. Only the first argument may be composed
of something lost; the others stay as they are. -/
theorem follows_evalComposed : ∀ (items : List Item) (irregular : Fault),
    keepsComposed levels items = true →
      Follows levels levels ComposedCall (Eval.evalItems naming irregular items)
        (Eval.evalItems naming irregular items)
  | [], _, kept => by cases kept
  | .irregular :: _, _, kept => by cases kept
  | .single rule :: rest, irregular, kept => by
    rw [keepsComposed, Bool.and_eq_true, Bool.or_eq_true] at kept
    rw [Eval.evalItems]
    have composed : Follows levels levels Composed (Eval.eval naming none rule)
        (Eval.eval naming none rule) := by
      rcases kept.1 with loose | first
      · exact (follows_eval rule none .loose loose).mono fun _ _ here => .lost here
      · exact follows_first rule none first
    refine composed.bind fun value value' here => ?_
    refine (follows_evalItems rest irregular _ kept.2).bind fun more others same => ?_
    cases same.eq_of_closed
    exact .pure (.intro here)

/-- The first argument of such a style: a list of parts, or one part that may itself be lost. Only
the first part may be lost, the one that can name other classes; those behind it are style objects.
-/
theorem follows_first : ∀ (rule : Expression) (binding : Option String),
    keepsFirst levels rule = true →
      Follows levels levels Composed (Eval.eval naming binding rule)
        (Eval.eval naming binding rule)
  | .array (.single first :: parts), _, kept => by
    rw [keepsFirst, Bool.and_eq_true] at kept
    rw [Eval.eval, Eval.evalItems]
    have items : Follows levels levels
        (fun items others => Composed (.array items) (.array others))
        (do
          let value ← Eval.eval naming none first
          let more ← Eval.evalItems naming .irregularItem parts
          pure (value :: more))
        (do
          let value ← Eval.eval naming none first
          let more ← Eval.evalItems naming .irregularItem parts
          pure (value :: more)) := by
      refine (follows_eval first none .loose kept.1).bind fun _ _ here => ?_
      exact (follows_evalItems parts .irregularItem _ kept.2).bind
        fun _ _ more => .pure (.parts here more)
    exact items.bind fun _ _ composed => .pure composed
  | .text _, _, kept | .number _, _, kept | .null, _, kept | .name _, _, kept
  | .negate _, _, kept | .template _ _, _, kept | .object _, _, kept | .array [], _, kept
  | .array (.irregular :: _), _, kept | .member _ _, _, kept | .index _ _, _, kept
  | .call _ _, _, kept | .group _, _, kept | .other, _, kept => by cases kept

end

end StyleGraph.Static
