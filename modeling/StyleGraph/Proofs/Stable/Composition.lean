import Mathlib.Data.List.Nodup
import StyleGraph.Proofs.Firsts
import StyleGraph.Proofs.Text.Cut
import StyleGraph.Stable.Exports

/-!
# Class maps and composition

The value of an exported class lists the classes that an element needs to look like it: its own, and
those of the classes that it is composed of. An export has no more references than the text of its
rules has, so a value goes one step along them. What a class contributes by itself is in the value
of every class composed of it; what its own references contribute need not be
(`classesIn_value_of_composed`, `composition_not_closed`).
-/

set_option autoImplicit false

namespace StyleGraph.Stable

open Css

/-- The class names in a value of a class map. -/
def classesIn (value : String) : List String := (Text.cutAll ' ' value.toList).map String.ofList

/-- The classes in a value are those in the names it was made of. -/
theorem classesIn_intercalate {names : List String} (nonempty : names ≠ []) :
    classesIn (String.intercalate " " names) = names.flatMap classesIn := by
  have blank : " ".toList = [' '] := rfl
  have pieces : names.map String.toList ≠ [] := by simpa using nonempty
  rw [classesIn, Text.toList_intercalate, blank, Text.cutAll_joinWith_eq_flatMap pieces,
    List.map_flatMap, List.flatMap_map]
  rfl

/-! ## What a reference contributes -/

/-- The names that a reference adds to an export: the written one, and its stable class. -/
def contributed (scheme : Option Scheme) (exports : List WrittenExport)
    (reference : ComposedClass) : List String :=
  composedName reference ::
    (scheme.bind fun scheme => scheme.stableFor? (sourceToken exports reference)).toList

/-- The names of an export by itself: the written one, and its stable class. -/
def ownNames (scheme : Option Scheme) (item : WrittenExport) : List String :=
  item.name :: (scheme.bind fun scheme => scheme.stableFor? item.token).toList

/-- The value of an export. -/
def value (scheme : Option Scheme) (exports : List WrittenExport) (item : WrittenExport) : String :=
  String.intercalate " " (namesOf scheme exports item)

variable (scheme : Option Scheme) {exports : List WrittenExport} {item other : WrittenExport}

/-- The entries of the class map are the exports, each under its token. -/
theorem mem_classMap (entry : String × String) :
    entry ∈ classMap scheme exports ↔
      ∃ item ∈ exports, entry = (item.token, value scheme exports item) := by
  simp only [classMap, List.mem_map, List.mem_mergeSort, value, eq_comm]

/-- An export stands for the names that it has by itself, and what its references contribute. -/
theorem mem_namesOf (name : String) :
    name ∈ namesOf scheme exports item ↔
      name ∈ ownNames scheme item ∨
        ∃ reference ∈ item.composed, name ∈ contributed scheme exports reference := by
  cases scheme with
  | none =>
    simp only [namesOf, plainNames, ownNames, contributed, List.mem_eraseDups, List.mem_cons,
      List.mem_map, Option.bind_none, Option.toList_none, List.not_mem_nil, or_false, eq_comm]
  | some scheme =>
    simp only [namesOf, Scheme.names, ownNames, contributed, List.mem_eraseDups, List.mem_append,
      List.mem_flatMap, Option.bind_some]

/-- A class is in a value if it is in a name that the value was made of. -/
theorem mem_classesIn_value (part : String) :
    part ∈ classesIn (value scheme exports item) ↔
      ∃ name ∈ namesOf scheme exports item, part ∈ classesIn name := by
  have nonempty : namesOf scheme exports item ≠ [] :=
    List.ne_nil_of_mem ((mem_namesOf scheme item.name).mpr (.inl List.mem_cons_self))
  rw [value, classesIn_intercalate nonempty, List.mem_flatMap]

/-- Where written names are distinct, a written name leads to its export. -/
theorem sourceToken_sheet (distinct : (exports.map WrittenExport.name).Nodup)
    (mem : item ∈ exports) : sourceToken exports (.sheet item.name) = item.token := by
  have found : ∃ last, exports.reverse.find? (fun other => other.name == item.name) = some last :=
    Option.isSome_iff_exists.mp (List.find?_isSome.mpr ⟨item, List.mem_reverse.mpr mem, by simp⟩)
  obtain ⟨last, found⟩ := found
  have same : last.name = item.name := by simpa using List.find?_some found
  have listed : last ∈ exports := List.mem_reverse.mp (List.mem_of_find?_eq_some found)
  have only : last = item := List.inj_on_of_nodup_map distinct listed mem same
  simp only [sourceToken, found, only]

/-- A reference to an export contributes the names that the export has by itself. -/
theorem contributed_sheet (distinct : (exports.map WrittenExport.name).Nodup)
    (mem : item ∈ exports) :
    contributed scheme exports (.sheet item.name) = ownNames scheme item := by
  rw [contributed, sourceToken_sheet distinct mem]
  rfl

/-- The names that an export has by itself are in its value. -/
theorem ownNames_subset_value {name : String} (own : name ∈ ownNames scheme item) :
    classesIn name ⊆ classesIn (value scheme exports item) := by
  intro part inName
  rw [mem_classesIn_value]
  exact ⟨name, (mem_namesOf scheme name).mpr (.inl own), inName⟩

/-- What a reference contributes is in the value of each export that has the reference. -/
theorem contributed_subset_value {reference : ComposedClass} (has : reference ∈ item.composed)
    {name : String} (adds : name ∈ contributed scheme exports reference) :
    classesIn name ⊆ classesIn (value scheme exports item) := by
  intro part inName
  rw [mem_classesIn_value]
  exact ⟨name, (mem_namesOf scheme name).mpr (.inr ⟨reference, has, adds⟩), inName⟩

/-! ## One step -/

/-- **Values go one step along references.** Where an export is composed of another one, its value
has the other's written name. If written names are distinct, it has all names that the other one has
by itself; and it has the other's value exactly if it has what the other's references contribute, so
in particular if each of these is a reference of its own, or leads to one of the two. -/
theorem classesIn_value_of_composed (mem : item ∈ exports) (otherMem : other ∈ exports)
    (composed : .sheet other.name ∈ item.composed) :
    (item.token, value scheme exports item) ∈ classMap scheme exports ∧
      (other.token, value scheme exports other) ∈ classMap scheme exports ∧
      classesIn other.name ⊆ classesIn (value scheme exports item) ∧
      ((exports.map WrittenExport.name).Nodup →
        (∀ name ∈ ownNames scheme other,
          classesIn name ⊆ classesIn (value scheme exports item)) ∧
        (classesIn (value scheme exports other) ⊆ classesIn (value scheme exports item) ↔
          ∀ reference ∈ other.composed, ∀ name ∈ contributed scheme exports reference,
            classesIn name ⊆ classesIn (value scheme exports item)) ∧
        (other.composed ⊆ .sheet other.name :: .sheet item.name :: item.composed →
          classesIn (value scheme exports other) ⊆ classesIn (value scheme exports item))) := by
  refine ⟨(mem_classMap scheme _).mpr ⟨item, mem, rfl⟩,
    (mem_classMap scheme _).mpr ⟨other, otherMem, rfl⟩,
    contributed_subset_value scheme composed List.mem_cons_self, fun distinct => ?_⟩
  have own : ∀ name ∈ ownNames scheme other,
      classesIn name ⊆ classesIn (value scheme exports item) := by
    intro name inOther
    rw [← contributed_sheet scheme distinct otherMem] at inOther
    exact contributed_subset_value scheme composed inOther
  -- its own names are there anyway, so only what it composes in turn can be missing
  have closed : classesIn (value scheme exports other) ⊆ classesIn (value scheme exports item) ↔
      ∀ reference ∈ other.composed, ∀ name ∈ contributed scheme exports reference,
        classesIn name ⊆ classesIn (value scheme exports item) := by
    constructor
    · intro subset reference has name adds
      exact List.Subset.trans (contributed_subset_value scheme has adds) subset
    · intro adds part inOther
      obtain ⟨name, named, inName⟩ := (mem_classesIn_value scheme part).mp inOther
      rcases (mem_namesOf scheme name).mp named with ownName | ⟨reference, has, added⟩
      · exact own name ownName inName
      · exact adds reference has name added inName
  refine ⟨own, closed, fun shared => closed.mpr fun reference has name adds => ?_⟩
  rcases List.mem_cons.mp (shared has) with rfl | has
  · exact own name (contributed_sheet scheme distinct otherMem ▸ adds)
  · rcases List.mem_cons.mp has with rfl | has
    · exact ownNames_subset_value scheme (contributed_sheet scheme distinct mem ▸ adds)
    · exact contributed_subset_value scheme has adds

/-- Two classes composed of each other and of a third one. -/
def crossed : List WrittenExport :=
  [⟨"a", "Mum5jG_a", [.sheet "Mum5jG_b", .sheet "Mum5jG_c"]⟩,
    ⟨"b", "Mum5jG_b", [.sheet "Mum5jG_a", .sheet "Mum5jG_c"]⟩, ⟨"c", "Mum5jG_c", []⟩]

/-- The counterexample at a chain of two compositions: the class at its end is named in what is
exported, though no direct target adds it. -/
theorem classesIn_value_crossed :
    let scheme := some (Scheme.ofSpace defaultNamespace)
    let item : WrittenExport := ⟨"a", "Mum5jG_a", [.sheet "Mum5jG_b", .sheet "Mum5jG_c"]⟩
    let other : WrittenExport := ⟨"b", "Mum5jG_b", [.sheet "Mum5jG_a", .sheet "Mum5jG_c"]⟩
    item ∈ crossed ∧ other ∈ crossed ∧ .sheet other.name ∈ item.composed ∧
      (crossed.map WrittenExport.name).Nodup ∧
      classesIn (value scheme crossed other) ⊆ classesIn (value scheme crossed item) := by
  intro scheme item other
  have mem : item ∈ crossed := by decide
  have otherMem : other ∈ crossed := by decide
  have composed : .sheet other.name ∈ item.composed := by decide
  have distinct : (crossed.map WrittenExport.name).Nodup := by decide
  have step := (classesIn_value_of_composed scheme mem otherMem composed).2.2.2 distinct
  exact ⟨mem, otherMem, composed, distinct, step.2.2 (by decide)⟩

/-- A class composed of a class that is composed of a third one. -/
def chain : List WrittenExport :=
  [⟨"a", "Mum5jG_a", [.sheet "Mum5jG_b"]⟩, ⟨"b", "Mum5jG_b", [.sheet "Mum5jG_c"]⟩,
    ⟨"c", "Mum5jG_c", []⟩]

/-- A class composed of one that is written as another one is. -/
def collided : List WrittenExport :=
  [⟨"a", "Mum5jG_a", [.sheet "Mum5jG_b"]⟩, ⟨"b", "Mum5jG_b", []⟩, ⟨"c", "Mum5jG_b", []⟩]

/-- The third class of a chain is not in the value of the first one, with and without stable
classes; and where two classes are written alike, the stable class of the first of them is not in
the value of what is composed of it. -/
theorem composition_not_closed :
    let scheme := some (Scheme.ofSpace defaultNamespace)
    let item : WrittenExport := ⟨"a", "Mum5jG_a", [.sheet "Mum5jG_b"]⟩
    let other : WrittenExport := ⟨"b", "Mum5jG_b", [.sheet "Mum5jG_c"]⟩
    let alike : WrittenExport := ⟨"b", "Mum5jG_b", []⟩
    (item ∈ chain ∧ other ∈ chain ∧ .sheet other.name ∈ item.composed ∧
      ∀ given ∈ [none, scheme], "Mum5jG_c" ∈ classesIn (value given chain other) ∧
        "Mum5jG_c" ∉ classesIn (value given chain item)) ∧
    item ∈ collided ∧ alike ∈ collided ∧ .sheet alike.name ∈ item.composed ∧
      "knighted-b" ∈ classesIn (value scheme collided alike) ∧
        "knighted-b" ∉ classesIn (value scheme collided item) := by
  decide +kernel

end StyleGraph.Stable
