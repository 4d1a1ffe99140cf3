import StyleGraph.Static.Property

/-!
# What may become of a value

When a module that is imported is missing, the names that come from it are unresolved, and values
that were computed from them change. A form says how much of a value may change: nothing, the value
as a whole, or parts of it that lie where a style object has its values. `At form v u` says that
`u` may stand in the place of `v`.

Forms are ordered by what they allow (`At.mono`). Entries keep their keys and their order, so what
is done with keys alone, such as a lookup or the merging of objects, goes the same way for both
(`AtEntries.get?`, `AtEntries.extend`).
-/

set_option autoImplicit false

namespace StyleGraph.Static

/-- How much of a value may change. -/
inductive Form
  /-- Nothing. -/
  | fixed
  /-- The value as a whole. -/
  | loose
  /-- The values of a style object, where no object is asked for, or of each in a list of style
  objects. -/
  | rule
  /-- The values of the style objects that an object holds. -/
  | rules
  /-- Whatever lies inside an object or a list. -/
  | parts
  /-- Anything. -/
  | any
  deriving DecidableEq, Repr, Inhabited

namespace Form

/-- Whether a form allows all that another one does. -/
def le : Form → Form → Bool
  | .fixed, _ | _, .any => true
  | .rule, .parts | .rules, .parts => true
  | form, other => form = other

/-- Whether a value may change as a whole. -/
def isOpen (form : Form) : Bool := form = .loose || form = .any

/-- Whether objects and lists may change inside. -/
def isNested (form : Form) : Bool := form ≠ .fixed && form ≠ .loose

/-- The form of the entry of an object under a key. In a style object it depends on the role of the
key. -/
def entry (form : Form) (key : String) : Form :=
  match form with
  | .fixed | .loose => .fixed
  | .rule =>
    match KeyRole.of key with
    | .pseudo | .nested => .rule
    | .selectors | .conditions _ => .rules
    | .customProperties => .parts
    | .declaration => .any
  | .rules => .rule
  | .parts | .any => .any

/-- The form of the items of a list. -/
def item : Form → Form
  | .fixed | .loose => .fixed
  | .rule | .rules => .rule
  | .parts | .any => .any

/-- A form allows what it allows itself. -/
theorem le_refl (form : Form) : form.le form = true := by
  cases form <;> rfl

/-- The widest form allows everything. -/
theorem le_any (form : Form) : form.le .any = true := by
  cases form <;> rfl

/-- A wider form is open where a narrower one is. -/
theorem isOpen_of_le {form other : Form} (le : form.le other = true)
    (isOpen : form.isOpen = true) : other.isOpen = true := by
  cases form <;> cases other <;>
    first | rfl | exact absurd isOpen (by decide) | exact absurd le (by decide)

/-- A wider form lets change what is nested where a narrower one does. -/
theorem isNested_of_le {form other : Form} (le : form.le other = true)
    (isNested : form.isNested = true) : other.isNested = true := by
  cases form <;> cases other <;>
    first | rfl | exact absurd isNested (by decide) | exact absurd le (by decide)

/-- The items of a wider form may change at least as much. -/
theorem item_le {form other : Form} (le : form.le other = true) :
    form.item.le other.item = true := by
  cases form <;> cases other <;> first | rfl | cases le

/-- What allows more of an object allows more of its entries. -/
theorem entry_le {form other : Form} (le : form.le other = true) (key : String) :
    (form.entry key).le (other.entry key) = true := by
  cases form <;> cases other <;>
    first | rfl | exact le_refl _ | exact le_any _ | exact absurd le (by decide)

end Form

/-! ## Values -/

mutual

/-- A value stands in the place of another one, of which a form allows that it changes. -/
inductive At : Form → Value → Value → Prop
  | same {form : Form} {value : Value} : At form value value
  | lost {form : Form} {value : Value} {origin : String} (isOpen : form.isOpen = true) :
      At form value (.unresolved origin)
  /-- A text was put together from other parts. -/
  | text {form : Form} {value other : String} (isOpen : form.isOpen = true) :
      At form (.text value) (.text other)
  /-- A style was composed of other classes. -/
  | classes {form : Form} {names others : String} (isOpen : form.isOpen = true) :
      At form (.classes names) (.classes others)
  | object {form : Form} {entries others : Entries} (isNested : form.isNested = true)
      (changed : AtEntries form entries others) : At form (.object entries) (.object others)
  | array {form : Form} {items others : List Value} (isNested : form.isNested = true)
      (changed : AtItems (fun _ => form.item) items others) : At form (.array items) (.array others)

/-- Items stand in the place of others, one by one, each with the form of its place. -/
inductive AtItems : (Nat → Form) → List Value → List Value → Prop
  | nil {forms : Nat → Form} : AtItems forms [] []
  | cons {forms : Nat → Form} {value other : Value} {items others : List Value}
      (changed : At (forms 0) value other) (rest : AtItems (fun n => forms (n + 1)) items others) :
      AtItems forms (value :: items) (other :: others)

/-- The entries of an object stand in the place of others, under the same keys and in order. -/
inductive AtEntries : Form → Entries → Entries → Prop
  | nil {form : Form} : AtEntries form [] []
  | cons {form : Form} {key : String} {value other : Value} {entries others : Entries}
      (changed : At (form.entry key) value other) (rest : AtEntries form entries others) :
      AtEntries form ((key, value) :: entries) ((key, other) :: others)

end

/-- A value may always stay the same. -/
theorem At.of_eq {form : Form} {value other : Value} (same : value = other) :
    At form value other := same ▸ .same

/-- Items may always stay the same, whatever their forms are. -/
theorem AtItems.refl {forms : Nat → Form} (items : List Value) : AtItems forms items items := by
  induction items generalizing forms with
  | nil => exact .nil
  | cons value items ih => exact .cons .same ih

/-- Entries may always stay the same. -/
theorem AtEntries.refl {form : Form} (entries : Entries) : AtEntries form entries entries := by
  induction entries with
  | nil => exact .nil
  | cons entry entries ih => exact .cons .same ih

mutual

/-- **A form that allows more allows what another one does.** -/
theorem At.mono {form other : Form} {value changed : Value} (le : form.le other = true) :
    At form value changed → At other value changed
  | .same => .same
  | .lost isOpen => .lost (Form.isOpen_of_le le isOpen)
  | .text isOpen => .text (Form.isOpen_of_le le isOpen)
  | .classes isOpen => .classes (Form.isOpen_of_le le isOpen)
  | .object isNested entries => .object (Form.isNested_of_le le isNested) (entries.mono le)
  | .array isNested items =>
    .array (Form.isNested_of_le le isNested) (items.mono fun _ => Form.item_le le)

/-- Items that change as some forms allow change as wider ones do. -/
theorem AtItems.mono {forms others : Nat → Form} {items changed : List Value}
    (le : ∀ n, (forms n).le (others n) = true) :
    AtItems forms items changed → AtItems others items changed
  | .nil => .nil
  | .cons item rest => .cons (item.mono (le 0)) (rest.mono fun n => le (n + 1))

/-- Entries that change as a form allows change as a wider one does. -/
theorem AtEntries.mono {form other : Form} {entries changed : Entries}
    (le : form.le other = true) : AtEntries form entries changed → AtEntries other entries changed
  | .nil => .nil
  | .cons entry rest => .cons (entry.mono (Form.entry_le le _)) (rest.mono le)

end

/-- A value that may not change is the same. -/
theorem At.eq_of_fixed {value changed : Value} (replaces : At .fixed value changed) :
    changed = value := by
  cases replaces with
  | same => rfl
  | lost isOpen => cases isOpen
  | text isOpen => cases isOpen
  | classes isOpen => cases isOpen
  | object isNested => cases isNested
  | array isNested => cases isNested

/-- What stands in the place of a value that may not change as a whole. -/
inductive Inside (form : Form) : Value → Value → Prop
  | same {value : Value} : Inside form value value
  | object {entries others : Entries} (isNested : form.isNested = true)
      (changed : AtEntries form entries others) : Inside form (.object entries) (.object others)
  | array {items others : List Value} (isNested : form.isNested = true)
      (changed : AtItems (fun _ => form.item) items others) :
      Inside form (.array items) (.array others)

/-- Where a form is closed a value keeps its kind, so it changes inside at most. -/
theorem At.inside {form : Form} {value changed : Value} (replaces : At form value changed)
    (closed : form.isOpen = false) : Inside form value changed := by
  have never : form.isOpen ≠ true := ne_true_of_eq_false closed
  cases replaces with
  | same => exact .same
  | object isNested entries => exact .object isNested entries
  | array isNested items => exact .array isNested items
  | lost isOpen => exact absurd isOpen never
  | text isOpen => exact absurd isOpen never
  | classes isOpen => exact absurd isOpen never

/-- What is unresolved stays so. -/
theorem At.unresolved {form : Form} {origin : String} {changed : Value}
    (replaces : At form (.unresolved origin) changed) : ∃ other, changed = .unresolved other := by
  cases replaces with
  | same => exact ⟨origin, rfl⟩
  | lost _ => exact ⟨_, rfl⟩

/-! ## Entries -/

namespace Entries

/-- What is found after a value was put under a key. A key that is there keeps its place, and only
its value is another one. -/
theorem get?_insert (entries : Entries) (key : String) (value : Value) (name : String) :
    (entries.insert key value).get? name =
      if key = name then some value else entries.get? name := by
  induction entries with
  | nil => rfl
  | cons entry entries ih =>
    obtain ⟨k, v⟩ := entry
    by_cases same : k = key
    · subst same
      simp only [insert, if_true, get?]
      split <;> rfl
    · simp only [insert, if_neg same, get?, ih]
      by_cases found : k = name
      · subst found
        simp [Ne.symm same]
      · simp [found]

end Entries

namespace AtEntries

variable {form : Form} {entries others : Entries}

/-- The same keys have values, and these stand in each other's place. -/
theorem get? (changed : AtEntries form entries others) (key : String) :
    Option.Rel (At (form.entry key)) (entries.get? key) (others.get? key) := by
  induction entries generalizing others with
  | nil => cases changed; exact .none
  | cons entry entries ih =>
    cases changed with
    | @cons _ k value other _ _ here rest =>
      simp only [Entries.get?]
      split
      next same => exact .some (same ▸ here)
      next => exact ih rest

/-- A value is put under the same key of both objects, where it may change as the form says for that
key. -/
theorem insert (changed : AtEntries form entries others) {key : String} {value other : Value}
    (here : At (form.entry key) value other) :
    AtEntries form (entries.insert key value) (others.insert key other) := by
  induction entries generalizing others with
  | nil => cases changed; exact .cons here .nil
  | cons entry entries ih =>
    cases changed with
    | @cons _ k old new _ _ first rest =>
      simp only [Entries.insert]
      split
      next same => exact .cons (same ▸ here) rest
      next => exact .cons first (ih rest)

/-- Objects that change may be put into objects that change. -/
theorem extend (changed : AtEntries form entries others) {more moreOthers : Entries}
    (added : AtEntries form more moreOthers) :
    AtEntries form (entries.extend more) (others.extend moreOthers) := by
  unfold Entries.extend
  induction more generalizing entries others moreOthers with
  | nil => cases added; exact changed
  | cons entry more ih =>
    cases added with
    | cons here rest => exact ih (changed.insert here) rest

end AtEntries

end StyleGraph.Static
