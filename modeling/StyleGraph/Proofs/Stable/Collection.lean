import Mathlib.Data.List.Nodup
import StyleGraph.Proofs.Css.Rule
import StyleGraph.Proofs.Css.Selector.Written
import StyleGraph.Proofs.Stable.Replacement
import StyleGraph.Proofs.Stable.Token
import StyleGraph.Proofs.Text.Cut
import StyleGraph.Stable.Literal

/-!
# The stable classes of a sheet with stable variants

Stable variants are made in one pass over the selectors, and stable classes are collected in
another one. The second pass goes wherever the first one does, and into `:global(…)` as well, which
the first leaves alone (`isCollected`). So no stable class is put into a sheet that is not collected
from it, whether it stands there bare or inside `:global(…)`.

## What is proved

`mem_selectorClasses_iff`: the classes that are collected are those at the places that the second
pass comes to. In a variant the stable class of every class that was replaced is among them
(`Scheme.hasClassAt_rewriteSelector`), and the others are those of the selector
(`Scheme.replaced_or_hasClassAt`).

`stableMap_stabilised`: under a namespace that is not blank, the map of a sheet with stable variants
has the stable class of every class that was replaced, under its token, and beyond these only what
the sheet had before.
-/

set_option autoImplicit false

namespace StyleGraph.Stable

open Css

/-! ## Which classes are collected -/

/-- Whether the classes inside a component are collected. -/
def isCollected : Component → Bool
  | .list _ _ => true
  | .wrap .slotted _ => true
  | .wrap .host _ => true
  | .wrap .global _ => true
  | _ => false

/-- Wherever stable variants are made, classes are collected. -/
theorem isCollected_of_isEntered {component : Component} (entered : isEntered component = true) :
    isCollected component = true := by
  unfold isEntered at entered
  split at entered
  · rfl
  · rfl
  · rfl
  · cases entered

/-- The classes of a compound are listed beside its components. -/
theorem withClasses_eq (components : List Component) :
    withClasses components =
      components.map fun component => (component, componentClasses component) := by
  induction components with
  | nil => rw [withClasses, List.map_nil]
  | cons component rest ih => rw [withClasses, ih, List.map_cons]

/-- The classes of a selector list are those of its selectors, one after the other. -/
theorem listClasses_eq (selectors : List Selector) :
    listClasses selectors = selectors.flatMap selectorClasses := by
  induction selectors with
  | nil => rw [listClasses, List.flatMap_nil]
  | cons selector rest ih => rw [listClasses, ih, List.flatMap_cons]

/-- A class of a selector is one of its components. -/
theorem mem_selectorClasses {selector : Selector} {name : String} :
    name ∈ selectorClasses selector ↔
      ∃ component ∈ selector.components, name ∈ componentClasses component := by
  obtain ⟨components, flags⟩ := selector
  simp only [selectorClasses, List.mem_flatMap, Selector.mem_turn, withClasses_eq, List.mem_map,
    exists_exists_and_eq_and, Selector.components]

/-- The classes of a component are those of the selectors inside it, if they are collected. Which
components are collected is a matter of their kind, so it is checked kind by kind. -/
theorem mem_componentClasses {component : Component} {name : String} :
    name ∈ componentClasses component ↔ component = .class name ∨
      isCollected component = true ∧
        ∃ inner ∈ component.inside, name ∈ selectorClasses inner := by
  unfold componentClasses
  split
  next other => simp [isCollected, eq_comm]
  next kind selectors => simp [isCollected, Component.inside, listClasses_eq]
  next kind inner => cases kind <;> simp [isCollected, Component.inside]
  next named listed wrapped =>
    cases component with
    | «class» other => exact absurd rfl (named other)
    | list kind selectors => exact absurd rfl (listed kind selectors)
    | wrap kind inner => exact absurd rfl (wrapped kind inner)
    | _ => simp [isCollected]

/-- **The classes that are collected from a selector are those at collected places.** -/
theorem mem_selectorClasses_iff {selector : Selector} {name : String} :
    name ∈ selectorClasses selector ↔ selector.HasClassAt isCollected name := by
  induction selector using Selector.inside_induction with
  | step selector ih =>
    rw [mem_selectorClasses, Selector.hasClassAt_iff]
    refine exists_congr fun component => and_congr_right fun listed => ?_
    rw [mem_componentClasses, Component.HoldsClassAt]
    refine or_congr_right (and_congr_right fun _ => ?_)
    exact exists_congr fun inner => and_congr_right fun mem => ih component listed inner mem

/-! ## Variants -/

/-- All places where variants are made are entered, and so is what stable classes stand in. -/
structure ShowsVariants (enters : Component → Bool) : Prop where
  entered : ∀ component, isEntered component = true → enters component = true
  global : ∀ inner, enters (.wrap .global inner) = true

/-- Collecting enters whatever rewriting enters, so it finds the variants that rewriting puts there.
-/
theorem showsVariants_isCollected : ShowsVariants isCollected :=
  ⟨fun _ => isCollected_of_isEntered, fun _ => rfl⟩

namespace Scheme

variable {scheme : Scheme} {enters : Component → Bool}

/-- A class at an entered place gets a stable variant. -/
def Replaced (scheme : Scheme) (selector : Selector) (name : String) : Prop :=
  selector.HasClassAt isEntered name ∧ scheme.accepts name = true

/-- A stable class is found as it stands, bare or inside `:global(…)`. -/
theorem holdsClassAt_component (shows : ShowsVariants enters) (name : String) :
    (scheme.component name).HoldsClassAt enters name := by
  unfold Scheme.component
  split
  · have inside : (Selector.ofWritten [.class name]).HasClassAt enters name := ⟨[], 0, rfl⟩
    exact .inr ⟨shows.global _, _, List.mem_singleton_self _, inside⟩
  · exact .inl rfl

/-- No other class is found there. A component of one class holds that class, and one that is
wrapped holds it at one place. -/
theorem eq_of_holdsClassAt_component {name other : String}
    (holds : (scheme.component name).HoldsClassAt enters other) : name = other := by
  have single {class' : String} (holds : (Component.class class').HoldsClassAt enters other) :
      class' = other := by
    rcases holds with same | ⟨-, _, none, -⟩
    · exact Component.class.inj same
    · cases none
  unfold Scheme.component at holds
  split at holds
  · rcases holds with bare | ⟨_, inner, mem, placed⟩
    · cases bare
    · rw [List.mem_singleton.mp mem, Selector.hasClassAt_iff] at placed
      obtain ⟨component, listed, holds⟩ := placed
      rw [List.mem_singleton.mp listed] at holds
      exact single holds
  · exact single holds

/-- **The stable class of every class that is replaced is found in the variant.** -/
theorem hasClassAt_rewriteSelector (shows : ShowsVariants enters) {selector : Selector}
    {name : String} (replaced : scheme.Replaced selector name) :
    (scheme.rewriteSelector selector).1.HasClassAt enters (className name scheme.space) := by
  obtain ⟨placed, accepted⟩ := replaced
  induction selector using Selector.inside_induction with
  | step selector ih =>
    rw [Selector.hasClassAt_iff] at placed ⊢
    rw [components_rewriteSelector]
    obtain ⟨component, listed, holds⟩ := placed
    refine ⟨_, List.mem_map_of_mem listed, ?_⟩
    rcases holds with rfl | ⟨entered, inner, mem, placed⟩
    · rw [rewriteComponent_class, if_pos accepted]
      exact holdsClassAt_component shows _
    · obtain ⟨_, inside, _⟩ := rewriteComponent_of_entered scheme entered
      refine .inr ⟨shows.entered _ (by rw [isEntered_rewriteComponent, entered]), ?_⟩
      rw [inside]
      exact ⟨_, List.mem_map_of_mem mem, ih component listed inner mem placed⟩

/-- A class that is replaced inside of an entered component is replaced in the selector. -/
theorem Replaced.of_inside {selector inner : Selector} {component : Component} {name : String}
    (listed : component ∈ selector.components) (entered : isEntered component = true)
    (mem : inner ∈ component.inside) (replaced : scheme.Replaced inner name) :
    scheme.Replaced selector name :=
  ⟨Selector.hasClassAt_iff.mpr ⟨component, listed, .inr ⟨entered, inner, mem, replaced.1⟩⟩,
    replaced.2⟩

/-- **A class that is found in a variant** is the stable class of a class that was replaced, or was
found in the selector before. -/
theorem replaced_or_hasClassAt (shows : ShowsVariants enters) {selector : Selector} {name : String}
    (placed : (scheme.rewriteSelector selector).1.HasClassAt enters name) :
    (∃ other, scheme.Replaced selector other ∧ className other scheme.space = name) ∨
      selector.HasClassAt enters name := by
  induction selector using Selector.inside_induction with
  | step selector ih =>
    rw [Selector.hasClassAt_iff, components_rewriteSelector] at placed
    obtain ⟨_, rewritten, holds⟩ := placed
    obtain ⟨component, listed, rfl⟩ := List.mem_map.mp rewritten
    have kept : component.HoldsClassAt enters name → selector.HasClassAt enters name :=
      fun holds => Selector.hasClassAt_iff.mpr ⟨component, listed, holds⟩
    by_cases entered : isEntered component = true
    · obtain ⟨_, inside, _⟩ := rewriteComponent_of_entered scheme entered
      rcases holds with bare | ⟨_, _, mem, placed⟩
      · rw [← @isEntered_rewriteComponent scheme, bare] at entered
        cases entered
      · rw [inside] at mem
        obtain ⟨inner, innerMem, rfl⟩ := List.mem_map.mp mem
        rcases ih component listed inner innerMem placed with ⟨other, replaced, rfl⟩ | before
        · exact .inl ⟨other, replaced.of_inside listed entered innerMem, rfl⟩
        · exact .inr (kept (.inr ⟨shows.entered _ entered, inner, innerMem, before⟩))
    · by_cases named : ∃ other, component = .class other
      · obtain ⟨other, rfl⟩ := named
        rw [rewriteComponent_class] at holds
        split at holds
        next accepted =>
          have placed : selector.HasClassAt isEntered other :=
            Selector.hasClassAt_iff.mpr ⟨_, listed, .inl rfl⟩
          exact .inl ⟨other, ⟨placed, accepted⟩, eq_of_holdsClassAt_component holds⟩
        next => exact .inr (kept holds)
      · have unnamed : component.class? = none := by
          cases component with
          | «class» other => exact absurd ⟨other, rfl⟩ named
          | _ => rfl
        rw [rewriteComponent_of_closed unnamed (eq_false_of_ne_true entered)] at holds
        exact .inr (kept holds)

end Scheme

/-! ## Lists with stable variants -/

/-- A class is found in a list with stable variants just when it is found in the list itself, or is
the stable class of a class that was replaced. -/
theorem exists_hasClassAt_apply_iff {enters : Component → Bool} (shows : ShowsVariants enters)
    {scheme : Scheme} {selectors : List Selector} {name : String} :
    (∃ selector ∈ Pipeline.apply [Transform.ofScheme scheme] selectors,
        selector.HasClassAt enters name) ↔
      ∃ selector ∈ selectors, selector.HasClassAt enters name ∨
        ∃ other, scheme.Replaced selector other ∧ className other scheme.space = name := by
  simp only [mem_apply_ofScheme]
  constructor
  · rintro ⟨_, listed | ⟨selector, listed, _, rfl⟩, placed⟩
    · exact ⟨_, listed, .inl placed⟩
    · exact ⟨selector, listed, (Scheme.replaced_or_hasClassAt shows placed).symm⟩
  · rintro ⟨selector, listed, placed | ⟨other, replaced, rfl⟩⟩
    · exact ⟨selector, .inl listed, placed⟩
    · obtain ⟨⟨way, index, there⟩, accepted⟩ := id replaced
      have changed := (Scheme.changed_iff_exists_at? selector).mpr
        ⟨way, index, other, there, accepted⟩
      exact ⟨_, .inr ⟨selector, listed, changed, rfl⟩,
        Scheme.hasClassAt_rewriteSelector shows replaced⟩

/-- The classes of a stabilised selector list are those that are collected before, and the variants
of those that are replaced. -/
theorem mem_listClasses_apply_iff {scheme : Scheme} {selectors : List Selector} {name : String} :
    name ∈ listClasses (Pipeline.apply [Transform.ofScheme scheme] selectors) ↔
      ∃ selector ∈ selectors, selector.HasClassAt isCollected name ∨
        ∃ other, scheme.Replaced selector other ∧ className other scheme.space = name := by
  simp only [listClasses_eq, List.mem_flatMap, mem_selectorClasses_iff]
  exact exists_hasClassAt_apply_iff showsVariants_isCollected

/-! ## The map of classes -/

namespace StableMap

/-- Every entry has the stable class of its name under a lead. -/
def IsLed (lead : String) (map : StableMap) : Prop := ∀ entry ∈ map, entry.2 = lead ++ entry.1

variable {lead : String} {map entries : StableMap} {entry other : String × String}

/-- Under one lead a name has one stable class, so a name that is known brings nothing new. -/
theorem mem_insert (led : map.IsLed lead) (entryLed : entry.2 = lead ++ entry.1) :
    other ∈ map.insert entry ↔ other ∈ map ∨ other = entry := by
  unfold insert
  split
  next known =>
    obtain ⟨present, mem, same⟩ := List.any_eq_true.mp known
    have equal : present = entry :=
      Prod.ext (beq_iff_eq.mp same) (by rw [led present mem, entryLed, beq_iff_eq.mp same])
    exact ⟨.inl, fun either => either.elim id fun here => by rwa [here, ← equal]⟩
  next => simp

/-- An entry with the lead is added to entries with the lead. -/
theorem IsLed.insert (led : map.IsLed lead) (entryLed : entry.2 = lead ++ entry.1) :
    (map.insert entry).IsLed lead := by
  intro other mem
  rcases (mem_insert led entryLed).mp mem with before | rfl
  · exact led other before
  · exact entryLed

/-- Entries that are added one by one are all there in the end. None takes the place of another one
with a different value, since the value is known from the key. -/
theorem mem_foldl_insert (led : map.IsLed lead) (entriesLed : IsLed lead entries) :
    other ∈ entries.foldl insert map ↔ other ∈ map ∨ other ∈ entries := by
  induction entries generalizing map with
  | nil => simp
  | cons entry entries ih =>
    obtain ⟨entryLed, restLed⟩ := List.forall_mem_cons.mp entriesLed
    rw [List.foldl_cons, ih (led.insert entryLed) restLed, mem_insert led entryLed, or_assoc,
      List.mem_cons]

/-- The entries are found under their names. A name has one stable class at most, as the class is
made from the name. -/
theorem stable?_eq_some_iff (led : map.IsLed lead) {name stable : String} :
    map.stable? name = some stable ↔ (name, stable) ∈ map := by
  unfold stable?
  constructor
  · intro found
    obtain ⟨entry, first, rfl⟩ := Option.map_eq_some_iff.mp found
    have same : entry.1 = name := by simpa using List.find?_some first
    rw [← same]
    exact List.mem_of_find?_eq_some first
  · intro mem
    obtain ⟨entry, first⟩ : ∃ entry, map.find? (fun entry => entry.1 == name) = some entry :=
      Option.isSome_iff_exists.mp (List.find?_isSome.mpr ⟨_, mem, beq_self_eq_true name⟩)
    have same : entry.1 = name := by simpa using List.find?_some first
    have equal : entry.2 = stable := by
      rw [led entry (List.mem_of_find?_eq_some first), same]
      exact (led _ mem).symm
    rw [first, Option.map_some, equal]

/-- No key is added twice. -/
theorem nodup_insert (nodup : (map.map Prod.fst).Nodup) :
    ((map.insert entry).map Prod.fst).Nodup := by
  unfold insert
  split
  next => exact nodup
  next new =>
    rw [List.map_append, List.nodup_append]
    refine ⟨nodup, List.nodup_singleton _, ?_⟩
    intro name mem other single same
    obtain ⟨present, known, rfl⟩ := List.mem_map.mp mem
    rw [List.mem_singleton.mp single] at same
    exact new (List.any_eq_true.mpr ⟨present, known, beq_iff_eq.mpr same⟩)

/-- The same for any number of entries. -/
theorem nodup_foldl_insert (nodup : (map.map Prod.fst).Nodup) :
    ((entries.foldl insert map).map Prod.fst).Nodup := by
  induction entries generalizing map with
  | nil => exact nodup
  | cons entry entries ih => exact ih (nodup_insert nodup)

/-- The entry of a class that begins with the namespace and goes on after it. -/
def entryOf? (space name : String) : Option (String × String) :=
  match Text.stripStart? (space ++ "-").toList name.toList with
  | some (c :: rest) => some (String.ofList (c :: rest), name)
  | _ => none

/-- The map of some classes is filled with their entries in order. -/
theorem ofClasses_eq (space : String) (classes : List String) :
    ofClasses space classes = (classes.filterMap (entryOf? space)).foldl insert [] :=
  rfl

/-- A class has an entry if it has the namespace in front and something behind it. So two classes
with the same entry are the same class. -/
theorem entryOf?_eq_some_iff {space name stable found : String} :
    entryOf? space found = some (name, stable) ↔
      found = stable ∧ name ≠ "" ∧ stable = space ++ "-" ++ name := by
  unfold entryOf?
  constructor
  · intro entry
    split at entry
    next c rest stripped =>
      cases entry
      refine ⟨rfl, by simp, String.toList_injective ?_⟩
      rw [Text.eq_append_of_stripStart? stripped, String.toList_append (s := space ++ "-"),
        String.toList_ofList]
    next => cases entry
  · rintro ⟨rfl, filled, rfl⟩
    rw [String.toList_append (s := space ++ "-"), Text.stripStart?_append]
    cases chars : name.toList with
    | nil => exact absurd (String.toList_eq_nil_iff.mp chars) filled
    | cons c rest => simp only [← chars, String.ofList_toList]

/-- **The entries of a map** are the names, each with its class, of the classes that begin with the
namespace and go on after it. -/
theorem mem_ofClasses {space name stable : String} {classes : List String} :
    (name, stable) ∈ ofClasses space classes ↔
      stable ∈ classes ∧ name ≠ "" ∧ stable = space ++ "-" ++ name := by
  have entriesLed : IsLed (space ++ "-") (classes.filterMap (entryOf? space)) := by
    intro entry mem
    obtain ⟨found, _, entered⟩ := List.mem_filterMap.mp mem
    exact (entryOf?_eq_some_iff.mp entered).2.2
  rw [ofClasses_eq, mem_foldl_insert (List.forall_mem_nil _) entriesLed, List.mem_filterMap]
  simp only [entryOf?_eq_some_iff, List.not_mem_nil, false_or, and_left_comm, exists_eq_left]

/-- Every entry of the map has the namespace in front of its key. -/
theorem isLed_ofClasses (space : String) (classes : List String) :
    (ofClasses space classes).IsLed (space ++ "-") :=
  fun _ mem => (mem_ofClasses.mp mem).2.2

/-- The keys of the map are given once. -/
theorem nodup_ofClasses (space : String) (classes : List String) :
    ((ofClasses space classes).map Prod.fst).Nodup :=
  nodup_foldl_insert List.nodup_nil

end StableMap

/-! ## The theorem -/

/-- A class stands at a collected place of a style rule, however deep the rule is in the sheet. -/
def Collected (sheet : Sheet) (name : String) : Prop :=
  ∃ selectors ∈ sheet.selectorLists, ∃ selector ∈ selectors, selector.HasClassAt isCollected name

/-- A class of a style rule gets a stable variant, however deep the rule is in the sheet. -/
def Scheme.ReplacedIn (scheme : Scheme) (sheet : Sheet) (name : String) : Prop :=
  ∃ selectors ∈ sheet.selectorLists, ∃ selector ∈ selectors, scheme.Replaced selector name

/-- The classes that are collected from a sheet with stable variants. They are those of the sheet
itself, and the variants' stable ones. -/
theorem mem_classes_run_iff {scheme : Scheme} {sheet : Sheet} {name : String} :
    name ∈ (Pipeline.run [Transform.ofScheme scheme] sheet).selectorLists.flatMap listClasses ↔
      Collected sheet name ∨
        ∃ other, scheme.ReplacedIn sheet other ∧ className other scheme.space = name := by
  simp only [Pipeline.run, Sheet.selectorLists_mapSelectors, List.mem_flatMap, List.mem_map,
    exists_exists_and_eq_and, mem_listClasses_apply_iff, Collected, Scheme.ReplacedIn]
  constructor
  · rintro ⟨selectors, within, selector, listed, placed | ⟨other, replaced, same⟩⟩
    · exact .inl ⟨selectors, within, selector, listed, placed⟩
    · exact .inr ⟨other, ⟨selectors, within, selector, listed, replaced⟩, same⟩
  · rintro (⟨selectors, within, selector, listed, placed⟩ |
      ⟨other, ⟨selectors, within, selector, listed, replaced⟩, same⟩)
    · exact ⟨selectors, within, selector, listed, .inl placed⟩
    · exact ⟨selectors, within, selector, listed, .inr ⟨other, replaced, same⟩⟩

/-- A token is never empty: what has no characters left is given a name. -/
theorem token_ne_empty (name : String) : token name ≠ "" := by
  intro empty
  have nonempty := (isToken_tokenChars name.toList).nonempty
  rw [token] at empty
  exact nonempty (String.ofList_eq_empty_iff.mp empty)

/-- A variant is the namespace, a hyphen and the token, if the namespace is not blank. -/
theorem className_eq {space : String} (nonblank : Text.trimmed space ≠ "") (name : String) :
    className name (Text.trimmed space) = Text.trimmed space ++ "-" ++ token name := by
  simp only [className, Text.trimmed_trimmed, isEmpty_eq_false_of_nonblank nonblank,
    Bool.false_eq_true, if_false]

/-- **The map of a sheet with stable variants** finds the stable class of every class that was
replaced, under its token. Its entries are these, and one for each class that the sheet had before
and that goes on after the namespace; no name has two. -/
theorem stableMap_stabilised (space : String) (included excluded : Option Pattern)
    (wrapsGlobal : Bool) (sheet : Sheet) (nonblank : Text.trimmed space ≠ "") :
    let scheme : Scheme := { Scheme.ofSpace space with included, excluded, wrapsGlobal }
    let map := StableMap.ofClasses scheme.space
      ((Pipeline.run [Transform.ofScheme scheme] sheet).selectorLists.flatMap listClasses)
    (∀ name, scheme.ReplacedIn sheet name →
      map.stable? (token name) = some (scheme.space ++ "-" ++ token name)) ∧
    (∀ key stable, (key, stable) ∈ map ↔ stable = scheme.space ++ "-" ++ key ∧
      ((∃ name, scheme.ReplacedIn sheet name ∧ token name = key) ∨
        key ≠ "" ∧ Collected sheet stable)) ∧
    (map.map Prod.fst).Nodup := by
  intro scheme map
  have led := StableMap.isLed_ofClasses scheme.space
    ((Pipeline.run [Transform.ofScheme scheme] sheet).selectorLists.flatMap listClasses)
  have spelled : ∀ name, className name scheme.space = scheme.space ++ "-" ++ token name :=
    className_eq nonblank
  -- a stable class is spelled with its token, and the token is its key
  have entries : ∀ key stable, (key, stable) ∈ map ↔ stable = scheme.space ++ "-" ++ key ∧
      ((∃ name, scheme.ReplacedIn sheet name ∧ token name = key) ∨
        key ≠ "" ∧ Collected sheet stable) := by
    intro key stable
    rw [StableMap.mem_ofClasses, mem_classes_run_iff]
    constructor
    · rintro ⟨collected | ⟨name, replaced, rfl⟩, filled, same⟩
      · exact ⟨same, .inr ⟨filled, collected⟩⟩
      · rw [spelled, String.append_right_inj] at same
        exact ⟨by rw [spelled, same], .inl ⟨name, replaced, same⟩⟩
    · rintro ⟨rfl, ⟨name, replaced, rfl⟩ | ⟨filled, collected⟩⟩
      · exact ⟨.inr ⟨name, replaced, spelled name⟩, token_ne_empty name, rfl⟩
      · exact ⟨.inl collected, filled, rfl⟩
  refine ⟨fun name replaced => ?_, entries, StableMap.nodup_ofClasses _ _⟩
  rw [StableMap.stable?_eq_some_iff led]
  exact (entries _ _).mpr ⟨rfl, .inl ⟨name, replaced, rfl⟩⟩

/-- A rule inside another one asks for `:not(.b:c)`, and one in a group for `:global(.acme-x)`. -/
def nestedSheet : Sheet where
  rules :=
    [.style [.mk [.class "a"] {}] {}
        [.style [.mk [.nesting, .list .negation [.mk [.class "b:c"] {}]] {}] {} []],
      .group .startingStyle [.style [.mk [.wrap .global (.mk [.class "acme-x"] {})] {}] {} []]]

/-- A sheet with a class inside of a pseudo-class, and a namespace with blanks around it. The blanks
are trimmed for the names and for the filter alike, and the class inside is collected like any
other. -/
theorem stableMap_stabilised_nestedSheet :
    let scheme : Scheme := { Scheme.ofSpace " acme " with wrapsGlobal := true }
    let map := StableMap.ofClasses scheme.space
      ((Pipeline.run [Transform.ofScheme scheme] nestedSheet).selectorLists.flatMap listClasses)
    Text.trimmed " acme " ≠ "" ∧ map.stable? "b-c" = some "acme-b-c" ∧
      ("x", "acme-x") ∈ map ∧ ("x", "x") ∉ map := by
  intro scheme map
  have nonblank : Text.trimmed " acme " ≠ "" := by decide +kernel
  obtain ⟨covered, entries, _⟩ :=
    stableMap_stabilised " acme " none none true nestedSheet nonblank
  have named : token "b:c" = "b-c" := by decide +kernel
  have spaced : scheme.space ++ "-" ++ "b-c" = "acme-b-c" := by decide +kernel
  have replaced : scheme.ReplacedIn nestedSheet "b:c" :=
    ⟨_, .tail _ (.head _), _, .head _, ⟨[(1, 0)], 0, rfl⟩, by decide +kernel⟩
  have collected : Collected nestedSheet "acme-x" :=
    ⟨_, .tail _ (.tail _ (.head _)), _, .head _, ⟨[(0, 0)], 0, rfl⟩⟩
  refine ⟨nonblank, ?_, (entries _ _).mpr ⟨by decide +kernel, .inr ⟨by decide, collected⟩⟩, ?_⟩
  · have found := covered "b:c" replaced
    rw [named] at found
    exact found.trans (congrArg some spaced)
  · intro mem
    have spelled : "x" = scheme.space ++ "-" ++ "x" := ((entries _ _).mp mem).1
    revert spelled
    decide +kernel

end StyleGraph.Stable
