import StyleGraph.Proofs.Static.Form
import StyleGraph.Static.State

/-!
# What can be recorded

Whether a style object can be recorded depends on its entries alone, each for itself
(`Recordable`), and what recording changes is the output (`records_recordStyle`). So a style object
can still be recorded when its values change as the form of style objects allows
(`Recordable.changed`), and when entries are left out (`Recordable.within`).
-/

set_option autoImplicit false

namespace StyleGraph.Static

/-- A computation has a result. -/
def Succeeds {ε α : Type} (result : Except ε α) : Prop := ∃ value, result = .ok value

/-- Whether a computation has a given result can be decided where results can be compared. Faults,
and the states that some of them carry, need no comparison. -/
instance decidableEqOk {ε α : Type} [DecidableEq α] (result : Except ε α) (value : α) :
    Decidable (result = .ok value) :=
  match result with
  | .ok found => decidable_of_iff (found = value) ⟨congrArg _, Except.ok.inj⟩
  | .error _ => .isFalse nofun

/-- The parts of a computation that has a result. -/
theorem bind_eq_ok_iff {ε α β : Type} {first : Except ε α} {next : α → Except ε β} {value : β} :
    (first >>= next) = .ok value ↔ ∃ middle, first = .ok middle ∧ next middle = .ok value := by
  cases first with
  | error fault => simp [bind, Except.bind]
  | ok middle => simp [bind, Except.bind]

/-- Two computations succeed one after the other if the first does and the second does with its
value. -/
theorem succeeds_bind_iff {ε α β : Type} {first : Except ε α} {next : α → Except ε β} :
    Succeeds (first >>= next) ↔ ∃ value, first = .ok value ∧ Succeeds (next value) := by
  simp only [Succeeds, bind_eq_ok_iff, ← exists_and_left]
  exact exists_comm

/-- Two computations, neither of which needs the other one, and their results put together. A fault
of the second is not reached if the first one fails, but either makes the whole fail. -/
theorem succeeds_both_iff {ε α β γ : Type} {first : Except ε α} {second : Except ε β}
    {together : α → β → γ} :
    Succeeds (do
      let here ← first
      let there ← second
      pure (together here there)) ↔ Succeeds first ∧ Succeeds second := by
  rw [succeeds_bind_iff]
  constructor
  · rintro ⟨value, here, rest⟩
    obtain ⟨other, there, -⟩ := succeeds_bind_iff.mp rest
    exact ⟨⟨value, here⟩, other, there⟩
  · rintro ⟨⟨value, here⟩, other, there⟩
    exact ⟨value, here, succeeds_bind_iff.mpr ⟨other, there, _, rfl⟩⟩

/-! ## Declarations -/

/-- A list is collected if each of its items can be, whatever is kept of them. -/
theorem succeeds_collect_iff {α β : Type} {f : α → Except Fault (Option β)} {items : List α} :
    Succeeds (collect f items) ↔ ∀ item ∈ items, Succeeds (f item) := by
  induction items with
  | nil => simp [collect, Succeeds]
  | cons item items ih => rw [collect, succeeds_both_iff, List.forall_mem_cons, ih]

/-- The declarations of a style object come from its entries, each for itself. -/
theorem succeeds_declarations_iff {rule : Entries} :
    Succeeds (declarations rule) ↔ ∀ entry ∈ rule, Succeeds (entryDeclarations entry) := by
  induction rule with
  | nil => simp [declarations, Succeeds]
  | cons entry rule ih => rw [declarations, succeeds_both_iff, List.forall_mem_cons, ih]

/-- One value of a property still declares something, or nothing. -/
theorem succeeds_declarationOf {key property : String} {value changed : Value}
    (replaces : At .any value changed)
    (succeeds : Succeeds (declarationOf key property value)) :
    Succeeds (declarationOf key property changed) := by
  cases replaces with
  | same => exact succeeds
  | lost _ => exact ⟨_, rfl⟩
  | text _ => exact ⟨_, rfl⟩
  | classes _ => exact ⟨_, rfl⟩
  | object _ _ => cases succeeds with | intro _ found => cases found
  | array _ _ => cases succeeds with | intro _ found => cases found

/-- The value of a variable may change in any way that leaves it a text or takes it away: an
unresolved value is passed over. -/
theorem succeeds_variableOf {key : String} {value changed : Value}
    (replaces : At .any value changed) (succeeds : Succeeds (variableOf (key, value))) : Succeeds (variableOf (key, changed)) := by
  cases replaces with
  | same => exact succeeds
  | lost _ => exact ⟨_, rfl⟩
  | text _ => exact ⟨_, rfl⟩
  | classes _ => exact ⟨_, rfl⟩
  | object _ _ => cases succeeds with | intro _ found => cases found
  | array _ _ => cases succeeds with | intro _ found => cases found

/-- Each item of a list that stands in the place of another list does so. -/
theorem AtItems.forall_mem {form : Form} {items others : List Value} {holds : Value → Prop}
    (changed : AtItems (fun _ => form) items others)
    (kept : ∀ value other, At form value other → holds value → holds other)
    (all : ∀ item ∈ items, holds item) : ∀ item ∈ others, holds item := by
  induction items generalizing others with
  | nil => cases changed; exact all
  | cons item items ih =>
    cases changed with
    | cons here rest =>
      rw [List.forall_mem_cons] at all ⊢
      exact ⟨kept _ _ here all.1, ih rest all.2⟩

/-- Each entry of an object that stands in the place of another object does so. -/
theorem AtEntries.forall_mem {form : Form} {entries others : Entries}
    {holds : String × Value → Prop} (changed : AtEntries form entries others)
    (kept : ∀ key value other, At (form.entry key) value other → holds (key, value) →
      holds (key, other))
    (all : ∀ entry ∈ entries, holds entry) : ∀ entry ∈ others, holds entry := by
  induction entries generalizing others with
  | nil => cases changed; exact all
  | cons entry entries ih =>
    cases changed with
    | cons here rest =>
      rw [List.forall_mem_cons] at all ⊢
      exact ⟨kept _ _ _ here all.1, ih rest all.2⟩

/-- An entry of a style object still has its declarations. Only keys that take plain values could
refuse the change, and a value is not changed under them. -/
theorem succeeds_entryDeclarations {key : String} {value changed : Value}
    (replaces : At (Form.rule.entry key) value changed)
    (succeeds : Succeeds (entryDeclarations (key, value))) :
    Succeeds (entryDeclarations (key, changed)) := by
  unfold entryDeclarations at succeeds ⊢
  simp only [Form.entry] at replaces
  cases role : KeyRole.of key with
  | pseudo => exact ⟨_, rfl⟩
  | selectors => exact ⟨_, rfl⟩
  | nested => exact ⟨_, rfl⟩
  | conditions _ => exact ⟨_, rfl⟩
  | customProperties =>
    simp only [role] at replaces succeeds ⊢
    cases replaces.inside rfl with
    | same => exact succeeds
    | object _ entries =>
      rw [succeeds_collect_iff] at succeeds ⊢
      exact entries.forall_mem (fun _ _ _ => succeeds_variableOf) succeeds
    | array _ _ => cases succeeds with | intro _ found => cases found
  | declaration =>
    simp only [role] at replaces succeeds ⊢
    cases replaces with
    | same => exact succeeds
    | array _ items =>
      rw [succeeds_collect_iff] at succeeds ⊢
      exact items.forall_mem (fun _ _ => succeeds_declarationOf) succeeds
    | lost _ => exact succeeds_collect_iff.mpr (List.forall_mem_singleton.mpr ⟨_, rfl⟩)
    | text _ => exact succeeds_collect_iff.mpr (List.forall_mem_singleton.mpr ⟨_, rfl⟩)
    | classes _ => exact succeeds_collect_iff.mpr (List.forall_mem_singleton.mpr ⟨_, rfl⟩)
    | object _ _ =>
      obtain ⟨_, found⟩ := List.forall_mem_singleton.mp (succeeds_collect_iff.mp succeeds)
      cases found

/-! ## Rules -/

mutual

/-- The rules nested in a style object can be recorded. -/
def NestedRecordable : List (String × Value) → Prop
  | [] => True
  | (key, value) :: rest => EntryRecordable key value ∧ NestedRecordable rest

/-- The rules of one entry of a style object can be recorded. -/
def EntryRecordable (key : String) : Value → Prop
  | .object inner =>
    match KeyRole.of key with
    | .pseudo | .nested => Succeeds (declarations inner) ∧ NestedRecordable inner
    | .selectors | .conditions _ => RulesRecordable inner
    | .customProperties | .declaration => True
  | _ => Eval.flatEntry key = Except.ok ()

/-- Rules that are given by their keys can be recorded. -/
def RulesRecordable : List (String × Value) → Prop
  | [] => True
  | (_, .object inner) :: rest =>
    (Succeeds (declarations inner) ∧ NestedRecordable inner) ∧ RulesRecordable rest
  | _ :: _ => False

end

/-- A style object can be recorded. -/
def Recordable (rule : Entries) : Prop := Succeeds (declarations rule) ∧ NestedRecordable rule

/-- A step goes through just under a condition, and then changes the output only. -/
def Records (condition : Prop) (step : Eval Unit) : Prop :=
  ∀ state, (Succeeds (step state) → condition) ∧
    (condition → ∃ output, step state = .ok ((), { state with output }))

namespace Records

variable {condition other : Prop} {step next : Eval Unit}

theorem pure : Records True (Pure.pure ()) := fun _ => ⟨fun _ => trivial, fun _ => ⟨_, rfl⟩⟩

theorem fail {fault : Fault} : Records False (Eval.fail fault) := by
  refine fun state => ⟨fun succeeds => ?_, False.elim⟩
  cases succeeds with
  | intro _ found => cases found

theorem lift {result : Except Fault Unit} :
    Records (result = .ok ()) (Eval.lift result) := by
  cases result with
  | ok value => exact fun state => ⟨fun _ => rfl, fun _ => ⟨_, rfl⟩⟩
  | error fault => exact fun state => ⟨fun ⟨_, found⟩ => (nomatch found), nofun⟩

/-- Two steps that record one after the other. The second one sees another output only, and its
condition does not look at the output. -/
theorem seq (first : Records condition step) (second : Records other next) :
    Records (condition ∧ other) (do step; next) := by
  intro state
  constructor
  · intro succeeds
    obtain ⟨⟨_, middle⟩, done, rest⟩ := succeeds_bind_iff.mp succeeds
    exact ⟨(first state).1 ⟨_, done⟩, (second middle).1 rest⟩
  · rintro ⟨here, there⟩
    obtain ⟨output, done⟩ := (first state).2 here
    obtain ⟨final, rest⟩ := (second { state with output }).2 there
    refine ⟨final, ?_⟩
    show (step >>= fun _ => next) state = _
    simp only [bind, StateT.bind, done, Except.bind]
    exact rest

/-- What is done with a selector that was resolved. -/
theorem resolved {key : String} {step : String → Eval Unit}
    (records : ∀ selector, Records condition (step selector)) :
    Records condition (do step (← Eval.resolveSelector key)) := fun state =>
  records (dotNames state.classNames key) state

end Records

/-- A rule is recorded just if its declarations can be listed. -/
theorem records_recordRule (selector : String) (conditions : List String) (rule : Entries) :
    Records (Succeeds (declarations rule)) (Eval.recordRule selector conditions rule) := by
  intro state
  unfold Eval.recordRule
  cases found : declarations rule with
  | ok value => exact ⟨fun _ => ⟨_, rfl⟩, fun _ => ⟨_, rfl⟩⟩
  | error fault => exact ⟨fun ⟨_, found⟩ => (nomatch found), fun ⟨_, found⟩ => (nomatch found)⟩

mutual

/-- The nested rules of a style object are recorded just if every entry can be. -/
theorem records_recordNested (selector : String) (conditions : List String) :
    ∀ rule, Records (NestedRecordable rule) (Eval.recordNested selector conditions rule)
  | [] => by
    rw [Eval.recordNested, NestedRecordable]
    exact .pure
  | (key, value) :: rest => by
    rw [Eval.recordNested, NestedRecordable]
    exact (records_recordEntry selector conditions key value).seq
      (records_recordNested selector conditions rest)

/-- An entry is recorded just if the role of its key and its value fit. Which values fit depends on
the role: an object fits if what is in it can be recorded. -/
theorem records_recordEntry (selector : String) (conditions : List String) (key : String) :
    ∀ value, Records (EntryRecordable key value) (Eval.recordEntry selector conditions key value)
  | .object inner => by
    rw [Eval.recordEntry, EntryRecordable]
    cases KeyRole.of key with
    | pseudo =>
      exact (records_recordRule _ conditions inner).seq (records_recordNested _ conditions inner)
    | selectors => exact records_recordSelectors selector conditions inner
    | nested =>
      refine .resolved fun resolved => ?_
      exact (records_recordRule _ conditions inner).seq (records_recordNested _ conditions inner)
    | conditions kind => exact records_recordConditions selector conditions kind inner
    | customProperties => exact .pure
    | declaration => exact .pure
  | .text _ | .number _ | .classes _ | .array _ | .undefined | .unresolved _ => by
    simp only [Eval.recordEntry, EntryRecordable]
    exact .lift

/-- Rules that are given by their selectors need objects. The rules are looked at one after the
other, and the first misfit is a fault. -/
theorem records_recordSelectors (selector : String) (conditions : List String) :
    ∀ rules, Records (RulesRecordable rules) (Eval.recordSelectors selector conditions rules)
  | [] => by
    rw [Eval.recordSelectors, RulesRecordable]
    exact .pure
  | (key, .object inner) :: rest => by
    rw [Eval.recordSelectors, RulesRecordable, and_assoc]
    refine .resolved fun resolved => ?_
    exact (records_recordRule _ conditions inner).seq
      ((records_recordNested _ conditions inner).seq
        (records_recordSelectors selector conditions rest))
  | (key, .text _) :: rest | (key, .number _) :: rest | (key, .classes _) :: rest
  | (key, .array _) :: rest | (key, .undefined) :: rest | (key, .unresolved _) :: rest => by
    simp only [Eval.recordSelectors, RulesRecordable]
    exact .fail

/-- Rules that are given by their conditions need objects as well. -/
theorem records_recordConditions (selector : String) (conditions : List String) (kind : String) :
    ∀ rules, Records (RulesRecordable rules) (Eval.recordConditions selector conditions kind rules)
  | [] => by
    rw [Eval.recordConditions, RulesRecordable]
    exact .pure
  | (query, .object inner) :: rest => by
    rw [Eval.recordConditions, RulesRecordable, and_assoc]
    exact (records_recordRule _ _ inner).seq
      ((records_recordNested _ _ inner).seq
        (records_recordConditions selector conditions kind rest))
  | (key, .text _) :: rest | (key, .number _) :: rest | (key, .classes _) :: rest
  | (key, .array _) :: rest | (key, .undefined) :: rest | (key, .unresolved _) :: rest => by
    simp only [Eval.recordConditions, RulesRecordable]
    exact .fail

end

/-- **Recording a style object** goes through just if it can be recorded, and changes the output
only. -/
theorem records_recordStyle (selector : String) (conditions : List String) (rule : Entries) :
    Records (Recordable rule) (Eval.recordStyle selector conditions rule) :=
  (records_recordRule selector conditions rule).seq (records_recordNested selector conditions rule)

/-! ## Entries that change -/

/-- Declarations whose values change as a style object lets them can still be listed, since each
entry can be. -/
theorem succeeds_declarations_changed {rule other : Entries} (changed : AtEntries .rule rule other)
    (succeeds : Succeeds (declarations rule)) : Succeeds (declarations other) := by
  rw [succeeds_declarations_iff] at succeeds ⊢
  exact changed.forall_mem (fun _ _ _ => succeeds_entryDeclarations) succeeds

/-- What is no object nests no rules. Where something else may take its place, a declaration is
asked for. -/
theorem flatEntry_of_isOpen {key : String} (isOpen : (Form.rule.entry key).isOpen = true) :
    Eval.flatEntry key = .ok () := by
  unfold Eval.flatEntry
  rw [Form.entry] at isOpen
  cases role : KeyRole.of key with
  | declaration => rfl
  | customProperties => rfl
  | _ => simp only [role] at isOpen; cases isOpen

mutual

/-- Nested rules that change as a style object lets them can still be recorded. The recursion is
that of the condition, entry by entry. -/
theorem nestedRecordable_changed :
    ∀ {rule other : Entries}, AtEntries .rule rule other → NestedRecordable rule →
      NestedRecordable other
  | [], _, .nil, recordable => recordable
  | (key, value) :: _, _, .cons here rest, recordable => by
    rw [NestedRecordable] at recordable ⊢
    exact ⟨@entryRecordable_changed key value _ here recordable.1,
      nestedRecordable_changed rest recordable.2⟩

/-- One entry: what is no object may become unresolved only where a declaration is asked for, and an
object stays one. -/
theorem entryRecordable_changed {key : String} :
    ∀ {value other : Value}, At (Form.rule.entry key) value other → EntryRecordable key value →
      EntryRecordable key other
  | _, _, .same, recordable => recordable
  | _, _, .lost isOpen, _ => flatEntry_of_isOpen isOpen
  | _, _, .text isOpen, _ => flatEntry_of_isOpen isOpen
  | _, _, .classes isOpen, _ => flatEntry_of_isOpen isOpen
  | _, _, .array _ _, recordable => recordable
  | .object inner, _, .object _ changed, recordable => by
    rw [EntryRecordable] at recordable ⊢
    simp only [Form.entry] at changed
    cases role : KeyRole.of key with
    | pseudo =>
      simp only [role] at changed recordable ⊢
      exact ⟨succeeds_declarations_changed changed recordable.1,
        nestedRecordable_changed changed recordable.2⟩
    | nested =>
      simp only [role] at changed recordable ⊢
      exact ⟨succeeds_declarations_changed changed recordable.1,
        nestedRecordable_changed changed recordable.2⟩
    | selectors =>
      simp only [role] at changed recordable ⊢
      exact rulesRecordable_changed changed recordable
    | conditions kind =>
      simp only [role] at changed recordable ⊢
      exact rulesRecordable_changed changed recordable
    | customProperties => trivial
    | declaration => trivial

/-- Rules that are given by their keys stay objects, so they can still be recorded. -/
theorem rulesRecordable_changed :
    ∀ {rules others : Entries}, AtEntries .rules rules others → RulesRecordable rules →
      RulesRecordable others
  | [], _, .nil, recordable => recordable
  | (_, .object inner) :: _, _, .cons (.object _ here) rest, recordable => by
    rw [RulesRecordable] at recordable ⊢
    exact ⟨⟨succeeds_declarations_changed here recordable.1.1,
      nestedRecordable_changed here recordable.1.2⟩, rulesRecordable_changed rest recordable.2⟩
  | (_, .object inner) :: _, _, .cons .same rest, recordable => by
    rw [RulesRecordable] at recordable ⊢
    exact ⟨recordable.1, rulesRecordable_changed rest recordable.2⟩

end

/-! ## Entries that are left out -/

/-- The nested rules can be recorded if each entry can be, wherever it stands. So the order of
entries makes no difference. -/
theorem nestedRecordable_iff {rule : Entries} :
    NestedRecordable rule ↔ ∀ entry ∈ rule, EntryRecordable entry.1 entry.2 := by
  induction rule with
  | nil => simp [NestedRecordable]
  | cons entry rule ih => rw [NestedRecordable, List.forall_mem_cons, ih]

/-- Every entry of an object stands in the place of an entry that a style object has under the same
key. -/
def Entries.Within (others rule : Entries) : Prop :=
  ∀ key changed, others.get? key = some changed →
    ∃ value, rule.get? key = some value ∧ At (Form.rule.entry key) value changed

/-- The keys of an object are given once. -/
def Entries.NodupKeys (entries : Entries) : Prop := (entries.map Prod.fst).Nodup

namespace Entries

/-- What is found under a key is an entry. -/
theorem mem_of_get? {entries : Entries} {key : String} {value : Value}
    (found : entries.get? key = some value) : (key, value) ∈ entries := by
  induction entries with
  | nil => cases found
  | cons entry entries ih =>
    obtain ⟨k, v⟩ := entry
    rw [get?] at found
    split at found
    next same => exact List.mem_cons.mpr (.inl (same ▸ Option.some.inj found ▸ rfl))
    next => exact List.mem_cons_of_mem _ (ih found)

/-- Where keys are given once, every entry is found under its key. -/
theorem NodupKeys.get?_of_mem {entries : Entries} (nodup : entries.NodupKeys) {key : String}
    {value : Value} (mem : (key, value) ∈ entries) : entries.get? key = some value := by
  induction entries with
  | nil => cases mem
  | cons entry entries ih =>
    obtain ⟨fresh, rest⟩ := List.nodup_cons.mp nodup
    rcases List.mem_cons.mp mem with rfl | mem
    · exact if_pos rfl
    · have other : entry.1 ≠ key := fun same => fresh (same ▸ List.mem_map_of_mem mem)
      rw [get?, if_neg other]
      exact ih rest mem

/-- A key of the new object is the one that was given or one that was there. So a condition on all
keys is kept. -/
theorem mem_keys_insert {entries : Entries} {key name : String} {value : Value}
    (mem : name ∈ (entries.insert key value).map Prod.fst) :
    name = key ∨ name ∈ entries.map Prod.fst := by
  induction entries with
  | nil => exact .inl (List.mem_singleton.mp mem)
  | cons entry entries ih =>
    obtain ⟨k, v⟩ := entry
    rw [insert] at mem
    split at mem
    next => exact .inr mem
    next =>
      rcases List.mem_cons.mp mem with rfl | mem
      · exact .inr List.mem_cons_self
      · exact (ih mem).imp_right (List.mem_cons_of_mem _)

/-- An object whose keys are given once stays so, since a key that is there is given a new value in
its place. -/
theorem NodupKeys.insert {entries : Entries} (nodup : entries.NodupKeys) (key : String)
    (value : Value) : (entries.insert key value).NodupKeys := by
  induction entries with
  | nil => exact List.nodup_cons.mpr ⟨List.not_mem_nil, .nil⟩
  | cons entry entries ih =>
    obtain ⟨k, v⟩ := entry
    obtain ⟨fresh, rest⟩ := List.nodup_cons.mp nodup
    rw [Entries.insert]
    split
    next => exact nodup
    next other =>
      refine List.nodup_cons.mpr ⟨fun mem => ?_, ih rest⟩
      exact (mem_keys_insert mem).elim other fresh

/-- The same for all entries of another object. -/
theorem NodupKeys.extend {entries : Entries} (nodup : entries.NodupKeys) (more : Entries) :
    (entries.extend more).NodupKeys := by
  unfold Entries.extend
  induction more generalizing entries with
  | nil => exact nodup
  | cons entry more ih => exact ih (nodup.insert entry.1 entry.2)

namespace Within

variable {rule others : Entries}

/-- An entry that stands in for another one may be put into both objects. -/
theorem insert (within : others.Within rule) {key : String} {value changed : Value}
    (here : At (Form.rule.entry key) value changed) :
    (others.insert key changed).Within (rule.insert key value) := by
  intro name found look
  rw [get?_insert] at look ⊢
  split at look
  next same =>
    subst same
    exact ⟨value, if_pos rfl, Option.some.inj look ▸ here⟩
  next other =>
    rw [if_neg other]
    exact within name found look

/-- Whole objects may be put into both, entry by entry. -/
theorem extend (within : others.Within rule) {more changed : Entries}
    (added : AtEntries .rule more changed) : (others.extend changed).Within (rule.extend more) := by
  unfold Entries.extend
  induction more generalizing rule others changed with
  | nil => cases added; exact within
  | cons entry more ih =>
    cases added with
    | cons here rest => exact ih (within.insert here) rest

end Within

end Entries

/-- **A style object can still be recorded** when entries are left out and others change.
Declarations and nested rules are looked at entry by entry, so fewer of them cannot fail. -/
theorem Recordable.within {rule others : Entries} (recordable : Recordable rule)
    (nodup : others.NodupKeys) (within : others.Within rule) : Recordable others := by
  have changes : ∀ entry ∈ others, ∃ value, (entry.1, value) ∈ rule ∧
      At (Form.rule.entry entry.1) value entry.2 := by
    intro entry mem
    obtain ⟨value, found, changed⟩ := within entry.1 entry.2 (nodup.get?_of_mem mem)
    exact ⟨value, Entries.mem_of_get? found, changed⟩
  constructor
  · refine succeeds_declarations_iff.mpr fun entry mem => ?_
    obtain ⟨value, listed, changed⟩ := changes entry mem
    exact succeeds_entryDeclarations changed (succeeds_declarations_iff.mp recordable.1 _ listed)
  · refine nestedRecordable_iff.mpr fun entry mem => ?_
    obtain ⟨value, listed, changed⟩ := changes entry mem
    exact entryRecordable_changed changed (nestedRecordable_iff.mp recordable.2 _ listed)

/-- **A style object can still be recorded** when its values change as the form of style objects
allows. -/
theorem Recordable.changed {rule others : Entries} (recordable : Recordable rule)
    (changed : AtEntries .rule rule others) : Recordable others :=
  ⟨succeeds_declarations_changed changed recordable.1,
    nestedRecordable_changed changed recordable.2⟩

end StyleGraph.Static
