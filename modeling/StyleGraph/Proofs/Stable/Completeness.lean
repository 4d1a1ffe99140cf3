import StyleGraph.Proofs.Css.Selector.Atoms
import StyleGraph.Proofs.Stable.Collection

/-!
# Which stable classes of a sheet are missing from its map

The map of a sheet should have every class of its style rules that begins with the namespace, in the
order in which they first appear. The collecting pass goes into most components that hold selectors,
but not into `:nth-child(… of …)`, `:local(…)` and pseudo-elements. So a class that stands only
there is missing (`stableMap_nthCard`), and one that stands there first may come too late.

## What is proved

`stableMap_complete_iff`: the keys are the first occurrences of what follows the namespace in the
classes at collected places. They are those of all classes of the style rules exactly if the
uncollected ones are idle. On every text, a sheet or not, a value is the namespace, a hyphen and the
key.
-/

set_option autoImplicit false

namespace StyleGraph.Stable

open Css

/-! ## Classes in order -/

/-- What is found inside of a component counts if the component is entered. -/
theorem counted_under (entered : Bool) (atoms : List (String × Bool)) :
    Firsts.counted (under entered atoms) = if entered then Firsts.counted atoms else [] := by
  cases entered with
  | true => simp [under, Firsts.counted]
  | false => simp [under, Firsts.counted]

/-- The classes of a selector in the order in which it is written. -/
theorem selectorClasses_eq_flatMap (selector : Selector) :
    selectorClasses selector = selector.written.flatMap componentClasses := by
  obtain ⟨components, flags⟩ := selector
  rw [selectorClasses, withClasses_eq, Selector.flatMap_turn_tagged]
  rfl

/-- The classes of a component are those of the selectors inside it, in order, if they are
collected. -/
theorem componentClasses_eq (component : Component) :
    componentClasses component = match component.class? with
      | some name => [name]
      | none =>
        if isCollected component then component.inside.flatMap selectorClasses else [] := by
  cases component with
  | list kind selectors => rw [componentClasses, listClasses_eq]; rfl
  | wrap kind inner =>
    cases kind <;> simp [componentClasses, Component.class?, isCollected, Component.inside]
  | _ => rfl

/-- **The classes that are collected from a selector** are those that count, in written order. Both
go into the same components, so by induction they collect the same. -/
theorem selectorClasses_eq (selector : Selector) :
    selectorClasses selector = Firsts.counted (selector.atoms isCollected) := by
  induction selector using Selector.inside_induction with
  | step selector ih =>
    rw [selectorClasses_eq_flatMap, Selector.atoms_eq, Firsts.counted_flatMap]
    refine List.flatMap_congr fun component listed => ?_
    rw [componentClasses_eq, Component.atoms_eq]
    cases component.class? with
    | some name => rfl
    | none =>
      rw [counted_under, Firsts.counted_flatMap]
      refine if_congr Iff.rfl (List.flatMap_congr fun inner mem => ?_) rfl
      exact ih component (Selector.mem_turn.mp listed) inner mem

namespace StableMap

/-- The keys of a map that grows by entries. A key that is there keeps its place, and one that is
new goes to the end. -/
theorem keys_foldl_insert (map entries : StableMap) :
    (entries.foldl insert map).map Prod.fst =
      (entries.map Prod.fst).foldl Firsts.add (map.map Prod.fst) := by
  induction entries generalizing map with
  | nil => rfl
  | cons entry entries ih =>
    have keys : (map.insert entry).map Prod.fst = Firsts.add (map.map Prod.fst) entry.1 := by
      have known : (map.any fun other => other.1 == entry.1) =
          (map.map Prod.fst).contains entry.1 := by
        rw [List.contains_eq_any_beq, List.any_map]
        exact List.any_congr rfl fun other => BEq.comm
      rw [insert, Firsts.add, known]
      split
      · rfl
      · rw [List.map_append, List.map_singleton]
    rw [List.foldl_cons, List.map_cons, List.foldl_cons, ih, keys]

/-- The keys of a map are those of its classes, each at its first place. -/
theorem keys_ofClasses (space : String) (classes : List String) :
    (ofClasses space classes).map Prod.fst =
      ((classes.filterMap (entryOf? space)).map Prod.fst).eraseDups := by
  rw [ofClasses_eq, keys_foldl_insert]
  exact Firsts.foldl_add_nil _

end StableMap

/-! ## The keys that are meant -/

/-- What follows the namespace in a class, if anything does. -/
def keyOf? (space name : String) : Option String :=
  (StableMap.entryOf? space name).map Prod.fst

/-- A class has a key if it has the namespace in front and something behind it. -/
theorem keyOf?_eq_some_iff {space name key : String} :
    keyOf? space name = some key ↔ key ≠ "" ∧ name = space ++ "-" ++ key := by
  rw [keyOf?, Option.map_eq_some_iff]
  constructor
  · rintro ⟨⟨_, stable⟩, entry, rfl⟩
    obtain ⟨rfl, filled, spelled⟩ := StableMap.entryOf?_eq_some_iff.mp entry
    exact ⟨filled, spelled⟩
  · rintro ⟨filled, spelled⟩
    exact ⟨(key, name), StableMap.entryOf?_eq_some_iff.mpr ⟨rfl, filled, spelled⟩, rfl⟩

/-- What follows the namespace in the classes of a sheet's style rules, at whatever depth, as they
are written, each with whether its class is collected. -/
def keysIn (space : String) (sheet : Sheet) : List (String × Bool) :=
  (sheet.selectorLists.flatMap fun selectors =>
    selectors.flatMap (Selector.atoms isCollected)).filterMap fun atom =>
      (keyOf? space atom.1).map fun key => (key, atom.2)

/-- A class stands in a style rule, however deep the rule is in the sheet and the class in the
rule's selectors. -/
def StandsIn (sheet : Sheet) (name : String) : Prop :=
  ∃ rule ∈ sheet.rules, ∃ selectors, Rule.Styles selectors rule ∧
    ∃ selector ∈ selectors, selector.HasClass name

/-- A key is in a sheet if the class for it is, and it counts where collecting finds that class. -/
theorem mem_keysIn {space key : String} {sheet : Sheet} {counts : Bool} :
    (key, counts) ∈ keysIn space sheet ↔ key ≠ "" ∧
      ∃ selectors ∈ sheet.selectorLists, ∃ selector ∈ selectors,
        (space ++ "-" ++ key, counts) ∈ selector.atoms isCollected := by
  constructor
  · intro entry
    obtain ⟨⟨name, shown⟩, atom, found⟩ := List.mem_filterMap.mp entry
    obtain ⟨key, keyed, same⟩ := Option.map_eq_some_iff.mp found
    cases same
    obtain ⟨filled, rfl⟩ := keyOf?_eq_some_iff.mp keyed
    obtain ⟨selectors, within, inList⟩ := List.mem_flatMap.mp atom
    obtain ⟨selector, listed, inSelector⟩ := List.mem_flatMap.mp inList
    exact ⟨filled, selectors, within, selector, listed, inSelector⟩
  · rintro ⟨filled, selectors, within, selector, listed, atom⟩
    have keyed : keyOf? space (space ++ "-" ++ key) = some key :=
      keyOf?_eq_some_iff.mpr ⟨filled, rfl⟩
    have inList := List.mem_flatMap.mpr ⟨selector, listed, atom⟩
    refine List.mem_filterMap.mpr ⟨_, List.mem_flatMap.mpr ⟨selectors, within, inList⟩, ?_⟩
    rw [keyed, Option.map_some]

/-- The keys that are meant are those of all classes that stand in style rules. -/
theorem mem_map_keysIn_iff {space key : String} {sheet : Sheet} :
    key ∈ (keysIn space sheet).map Prod.fst ↔
      key ≠ "" ∧ StandsIn sheet (space ++ "-" ++ key) := by
  simp only [List.mem_map, Prod.exists, exists_and_right, exists_eq_right, mem_keysIn, StandsIn,
    ← @Selector.mem_atoms_iff isCollected]
  constructor
  · rintro ⟨shown, filled, selectors, within, selector, listed, atom⟩
    obtain ⟨rule, mem, styles⟩ := Sheet.mem_selectorLists_iff.mp within
    exact ⟨filled, rule, mem, selectors, styles, selector, listed, shown, atom⟩
  · rintro ⟨filled, rule, mem, selectors, styles, selector, listed, shown, atom⟩
    have within := Sheet.mem_selectorLists_iff.mpr ⟨rule, mem, styles⟩
    exact ⟨shown, filled, selectors, within, selector, listed, atom⟩

/-- Those that count are the keys of the classes that are collected. -/
theorem mem_keysIn_true_iff {space key : String} {sheet : Sheet} :
    (key, true) ∈ keysIn space sheet ↔ key ≠ "" ∧ Collected sheet (space ++ "-" ++ key) := by
  simp only [mem_keysIn, Selector.mem_atoms_true_iff, Collected]

/-- The keys of a sheet's map are the first occurrences of those that are collected. -/
theorem keys_ofClasses_sheet (space : String) (sheet : Sheet) :
    (StableMap.ofClasses space (sheet.selectorLists.flatMap listClasses)).map Prod.fst =
      (Firsts.counted (keysIn space sheet)).eraseDups := by
  have classes : sheet.selectorLists.flatMap listClasses =
      Firsts.counted (sheet.selectorLists.flatMap fun selectors =>
        selectors.flatMap (Selector.atoms isCollected)) := by
    rw [Firsts.counted_flatMap]
    refine List.flatMap_congr fun selectors _ => ?_
    rw [listClasses_eq, Firsts.counted_flatMap]
    exact List.flatMap_congr fun selector _ => selectorClasses_eq selector
  rw [StableMap.keys_ofClasses, classes, List.map_filterMap, keysIn, Firsts.counted_filterMap]
  rfl

/-! ## The theorem -/

/-- A map gives no key twice. -/
theorem nodup_keys_stableMap (css space : String) :
    ((stableMap css space).map Prod.fst).Nodup := by
  simp only [stableMap]
  split
  · exact List.nodup_nil
  · split
    · exact StableMap.nodup_ofClasses _ _
    · exact StableMap.nodup_foldl_insert List.nodup_nil

/-- The values of a map are led by the namespace and a hyphen, whether the text is a sheet or is
only searched for names. -/
theorem isLed_stableMap (css space : String) :
    (stableMap css space).IsLed (Text.trimmed space ++ "-") := by
  have searched (names : List String) : StableMap.IsLed (Text.trimmed space ++ "-")
      (names.map fun name => (name, Text.trimmed space ++ "-" ++ name)) := by
    intro entry mem
    obtain ⟨name, _, rfl⟩ := List.mem_map.mp mem
    rfl
  simp only [stableMap]
  split
  · exact List.forall_mem_nil _
  · split
    · exact StableMap.isLed_ofClasses _ _
    · intro entry mem
      have found := (StableMap.mem_foldl_insert (List.forall_mem_nil _) (searched _)).mp mem
      exact searched _ entry (found.resolve_left List.not_mem_nil)

/-- **Which keys a map has.** On every text the values are led by the namespace. For a text that is
a sheet the keys are the first occurrences of those that are collected; these are the first
occurrences of all keys of the style rules, at whatever depth, just when every key that is not
collected has come before or is the next new one that is. -/
theorem stableMap_complete_iff (css space : String) (nonblank : Text.trimmed space ≠ "") :
    (∀ entry ∈ stableMap css space, entry.2 = Text.trimmed space ++ "-" ++ entry.1) ∧
    ((stableMap css space).map Prod.fst).Nodup ∧
    ∀ sheet, Sheet.ofText? true css = some sheet →
      let keys := keysIn (Text.trimmed space) sheet
      (∀ key, key ∈ keys.map Prod.fst ↔
        key ≠ "" ∧ StandsIn sheet (Text.trimmed space ++ "-" ++ key)) ∧
      (∀ key, (key, true) ∈ keys ↔
        key ≠ "" ∧ Collected sheet (Text.trimmed space ++ "-" ++ key)) ∧
      (stableMap css space).map Prod.fst = (Firsts.counted keys).eraseDups ∧
      ((stableMap css space).map Prod.fst = (keys.map Prod.fst).eraseDups ↔ Firsts.Idle keys) := by
  refine ⟨isLed_stableMap css space, nodup_keys_stableMap css space, fun sheet parsed => ?_⟩
  intro keys
  have filled : (Text.trimmed space).isEmpty = false := by simpa using nonblank
  have collected : (stableMap css space).map Prod.fst = (Firsts.counted keys).eraseDups := by
    simp only [stableMap, filled, Bool.false_eq_true, if_false, parsed]
    exact keys_ofClasses_sheet _ sheet
  refine ⟨fun key => mem_map_keysIn_iff, fun key => mem_keysIn_true_iff, collected, ?_⟩
  rw [collected]
  exact Firsts.eraseDups_counted_eq_iff keys

/-- Two classes, of which the one that is written first stands again inside `:nth-child(… of …)`. -/
def titledText : String :=
  ":is(.knighted-title:hover) .knighted-card { color: red }\n" ++
    "@media (min-width: 1px) { :nth-child(1 of .knighted-title) { color: blue } }"

/-- A sheet where a class that is missed is found at another place before it matters. The missed
place comes second, so the keys and their order are those of the complete list. -/
theorem stableMap_complete_iff_titled :
    Text.trimmed " knighted " ≠ "" ∧
      ∃ sheet, Sheet.ofText? true titledText = some sheet ∧
        (stableMap titledText " knighted ").map Prod.fst =
          ((keysIn "knighted" sheet).map Prod.fst).eraseDups ∧
        Firsts.Idle (keysIn "knighted" sheet) := by
  have nonblank : Text.trimmed " knighted " ≠ "" := by decide +kernel
  have trimmed : Text.trimmed " knighted " = "knighted" := by decide +kernel
  have chars : titledText.toList = _ := Text.toList_ofList_append _ _
  have read : ((Sheet.ofText? true titledText).map (keysIn "knighted")) =
      some [("title", true), ("card", true), ("title", false)] := by
    rewrite [Sheet.ofText?, Piece.ofText, chars]
    decide +kernel
  obtain ⟨sheet, parsed, keys⟩ := Option.map_eq_some_iff.mp read
  obtain ⟨-, -, mapped⟩ := stableMap_complete_iff titledText " knighted " nonblank
  obtain ⟨-, -, collected, complete⟩ := mapped sheet parsed
  rw [trimmed] at collected complete
  have same : (stableMap titledText " knighted ").map Prod.fst =
      ((keysIn "knighted" sheet).map Prod.fst).eraseDups := by
    rw [collected, keys]
    decide
  exact ⟨nonblank, sheet, parsed, same, complete.mp same⟩

/-- A class that stands only inside `:nth-child(… of …)`. -/
def nthText : String := ":nth-child(1 of .knighted-card) { color: red }"

/-- The key of such a class is meant, and missing. -/
theorem stableMap_nthCard :
    ∃ sheet, Sheet.ofText? true nthText = some sheet ∧
      ((keysIn "knighted" sheet).map Prod.fst).eraseDups = ["card"] ∧
      StandsIn sheet ("knighted" ++ "-" ++ "card") ∧
      (stableMap nthText "knighted").map Prod.fst = [] := by
  have read : ((Sheet.ofText? true nthText).map (keysIn "knighted")) = some [("card", false)] := by
    decide +kernel
  obtain ⟨sheet, parsed, keys⟩ := Option.map_eq_some_iff.mp read
  have meant : "card" ∈ (keysIn "knighted" sheet).map Prod.fst := by rw [keys]; decide
  refine ⟨sheet, parsed, by rw [keys]; decide, (mem_map_keysIn_iff.mp meant).2, by decide +kernel⟩

end StyleGraph.Stable
