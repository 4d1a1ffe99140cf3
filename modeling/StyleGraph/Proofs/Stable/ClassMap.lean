import StyleGraph.Proofs.Stable.Composition

/-!
# Class maps with stable classes

A class map without stable classes and one with them are made by two functions, each of which leaves
repeated names out in its own way. `classMap_stable_adds` puts them side by side: the keys are the
same, in the same order, and the names of a value grow by stable classes only.

A value has blanks between its names. A name may have a blank of its own, so names are told as they
were put into the value; where none has one, they are what can be read off it.
-/

set_option autoImplicit false

namespace StyleGraph.Stable

open Css

variable {exports : List WrittenExport} {item : WrittenExport}

/-! ## Keys -/

/-- The keys are the tokens of the exports in their order as texts. -/
theorem keys_classMap (scheme : Option Scheme) (exports : List WrittenExport) :
    (classMap scheme exports).map Prod.fst =
      (exports.map WrittenExport.token).mergeSort fun a b => decide (a ≤ b) := by
  have tokens : (classMap scheme exports).map Prod.fst =
      (exports.mergeSort fun a b => decide (a.token ≤ b.token)).map WrittenExport.token := by
    rw [classMap, List.map_map]
    rfl
  rw [tokens]
  exact List.map_mergeSort fun _ _ _ _ => rfl

/-- Different tokens stand in ascending order. They are sorted, and no two of them are the same. -/
theorem pairwise_keys_classMap (scheme : Option Scheme)
    (tokens : (exports.map WrittenExport.token).Nodup) :
    ((classMap scheme exports).map Prod.fst).Pairwise (· < ·) := by
  rw [keys_classMap]
  have ascending : ((exports.map WrittenExport.token).mergeSort fun a b => decide (a ≤ b)).Pairwise
      fun a b => decide (a ≤ b) = true := by
    refine List.pairwise_mergeSort (fun a b c below above => ?_) (fun a b => ?_) _
    · exact decide_eq_true (String.le_trans (of_decide_eq_true below) (of_decide_eq_true above))
    · simpa using String.le_total a b
  have apart := (List.mergeSort_perm (exports.map WrittenExport.token)
    fun a b => decide (a ≤ b)).nodup_iff.mpr tokens
  refine ascending.imp₂ (fun a b below different => ?_) apart
  exact Std.lt_of_le_of_ne (of_decide_eq_true below) different

/-! ## Names -/

/-- No export lists a name twice, since the names are kept at their first place only. -/
theorem nodup_namesOf (scheme : Option Scheme) (exports : List WrittenExport)
    (item : WrittenExport) : (namesOf scheme exports item).Nodup := by
  cases scheme with
  | none => exact Firsts.nodup_eraseDups _
  | some scheme => exact Firsts.nodup_eraseDups _

/-- Names without blanks can be read off the value that they are put into. -/
theorem classesIn_intercalate_of_not_mem {names : List String} (nonempty : names ≠ [])
    (solid : ∀ name ∈ names, ' ' ∉ name.toList) :
    classesIn (String.intercalate " " names) = names := by
  have single : ∀ name ∈ names, classesIn name = [name] := by
    intro name mem
    rw [classesIn, Text.cutAll_of_not_mem (solid name mem), List.map_singleton,
      String.ofList_toList]
  rw [classesIn_intercalate nonempty]
  calc names.flatMap classesIn
      = names.flatMap fun name => [name] := List.flatMap_congr single
    _ = names := List.flatMap_singleton' names

/-- The name that a composed class has in the text: that of the export that is written so, and else
its own. -/
inductive GoesBy (exports : List WrittenExport) : ComposedClass → String → Prop
  | exported (item : WrittenExport) (mem : item ∈ exports) :
    GoesBy exports (.sheet item.name) item.token
  | unexported (name : String) (absent : ∀ item ∈ exports, item.name ≠ name) :
    GoesBy exports (.sheet name) name
  | global (name : String) : GoesBy exports (.global name) name
  | file (name source : String) : GoesBy exports (.file name source) name

/-- A name that is not exported stands for itself. -/
theorem sourceToken_of_absent {name : String} (absent : ∀ item ∈ exports, item.name ≠ name) :
    sourceToken exports (.sheet name) = name := by
  have none : exports.reverse.find? (fun item => item.name == name) = none := by
    rw [List.find?_eq_none]
    intro item mem
    simpa using absent item (List.mem_reverse.mp mem)
  simp only [sourceToken, none]

/-- Where written names are distinct, the stable class of a composed class is made from the name
that it goes by. -/
theorem goesBy_iff (distinct : (exports.map WrittenExport.name).Nodup)
    {reference : ComposedClass} {token : String} :
    GoesBy exports reference token ↔ sourceToken exports reference = token := by
  constructor
  · intro goes
    cases goes with
    | exported item mem => exact sourceToken_sheet distinct mem
    | unexported name absent => exact sourceToken_of_absent absent
    | global name => rfl
    | file name source => rfl
  · rintro rfl
    cases reference with
    | sheet name =>
      by_cases written : ∃ item ∈ exports, item.name = name
      · obtain ⟨item, mem, rfl⟩ := written
        rw [sourceToken_sheet distinct mem]
        exact .exported item mem
      · have absent : ∀ item ∈ exports, item.name ≠ name := fun item mem same =>
          written ⟨item, mem, same⟩
        rw [sourceToken_of_absent absent]
        exact .unexported name absent
    | global name => exact .global name
    | file name source => exact .file name source

/-! ## The theorem -/

/-- **Stable classes are all that a class map gains.** Of exports with distinct tokens and distinct
written names, the maps with and without stable classes have the tokens as keys, in ascending order.
No value has a name twice. Without stable classes it is the written names of the export and of what
it is composed of; with them, these and the stable classes of the token and of the name that each
composed class goes by. -/
theorem classMap_stable_adds (scheme : Scheme)
    (tokens : (exports.map WrittenExport.token).Nodup)
    (distinct : (exports.map WrittenExport.name).Nodup) :
    (classMap (some scheme) exports).map Prod.fst = (classMap none exports).map Prod.fst ∧
    ((classMap none exports).map Prod.fst).Pairwise (· < ·) ∧
    ((classMap none exports).map Prod.fst).Perm (exports.map WrittenExport.token) ∧
    ∀ item ∈ exports, ∃ plain stable : List String,
      (item.token, String.intercalate " " plain) ∈ classMap none exports ∧
      (item.token, String.intercalate " " stable) ∈ classMap (some scheme) exports ∧
      plain.Nodup ∧ stable.Nodup ∧
      (∀ name, name ∈ plain ↔
        name = item.name ∨ ∃ reference ∈ item.composed, composedName reference = name) ∧
      (∀ name, name ∈ stable ↔ name ∈ plain ∨ scheme.stableFor? item.token = some name ∨
        ∃ reference ∈ item.composed, ∃ token, GoesBy exports reference token ∧
          scheme.stableFor? token = some name) ∧
      ∀ names ∈ [plain, stable], (∀ name ∈ names, ' ' ∉ name.toList) →
        classesIn (String.intercalate " " names) = names := by
  refine ⟨by rw [keys_classMap, keys_classMap], pairwise_keys_classMap none tokens, ?_, ?_⟩
  · rw [keys_classMap]
    exact List.mergeSort_perm _ _
  intro item mem
  have plain : ∀ name, name ∈ namesOf none exports item ↔
      name = item.name ∨ ∃ reference ∈ item.composed, composedName reference = name := by
    intro name
    simp only [namesOf, plainNames, List.mem_eraseDups, List.mem_cons, List.mem_map]
  refine ⟨namesOf none exports item, namesOf (some scheme) exports item,
    (mem_classMap none _).mpr ⟨item, mem, rfl⟩, (mem_classMap (some scheme) _).mpr ⟨item, mem, rfl⟩,
    nodup_namesOf none exports item, nodup_namesOf (some scheme) exports item, plain, ?_, ?_⟩
  · intro name
    rw [mem_namesOf, plain]
    simp only [ownNames, contributed, Option.bind_some, List.mem_cons, Option.mem_toList,
      goesBy_iff distinct, exists_eq_left']
    -- Both sides list the same names, grouped in two ways.
    grind
  · intro names listed solid
    refine classesIn_intercalate_of_not_mem ?_ solid
    have own (given : Option Scheme) : namesOf given exports item ≠ [] :=
      List.ne_nil_of_mem ((mem_namesOf given item.name).mpr (.inl List.mem_cons_self))
    rcases List.mem_cons.mp listed with rfl | listed
    · exact own none
    · rw [List.mem_singleton.mp listed]
      exact own (some scheme)

/-- A class composed of one that the sheet exports, of the global class that is its own stable
class, and of one that the sheet does not export. -/
def gathered : List WrittenExport :=
  [⟨"b", "Mum5jG_b", [.sheet "Mum5jG_a", .global "knighted-b", .sheet "Mum5jG_x"]⟩,
    ⟨"a", "Mum5jG_a", []⟩]

theorem classMap_stable_adds_gathered :
    let scheme := Scheme.ofSpace defaultNamespace
    (gathered.map WrittenExport.token).Nodup ∧ (gathered.map WrittenExport.name).Nodup ∧
      (classMap (some scheme) gathered).map Prod.fst = (classMap none gathered).map Prod.fst ∧
      ∃ stable : List String,
        ("b", String.intercalate " " stable) ∈ classMap (some scheme) gathered ∧ stable.Nodup ∧
        "Mum5jG_x" ∈ stable ∧ "knighted-Mum5jG_x" ∈ stable ∧ "knighted-a" ∈ stable := by
  intro scheme
  have tokens : (gathered.map WrittenExport.token).Nodup := by decide
  have distinct : (gathered.map WrittenExport.name).Nodup := by decide
  obtain ⟨keys, -, -, values⟩ := classMap_stable_adds scheme tokens distinct
  obtain ⟨plain, stable, -, mapped, -, once, plainNames, stableNames, -⟩ :=
    values _ List.mem_cons_self
  have absent : ∀ item ∈ gathered, item.name ≠ "Mum5jG_x" := by decide
  have written : ⟨"a", "Mum5jG_a", []⟩ ∈ gathered := by decide
  refine ⟨tokens, distinct, keys, stable, mapped, once, (stableNames _).mpr (.inl ?_),
    (stableNames _).mpr (.inr (.inr ⟨_, .tail _ (.tail _ (.head _)), _, .unexported _ absent, ?_⟩)),
    (stableNames _).mpr (.inr (.inr ⟨_, .head _, _, .exported _ written, ?_⟩))⟩
  · exact (plainNames _).mpr (.inr ⟨_, .tail _ (.tail _ (.head _)), rfl⟩)
  · decide +kernel
  · decide +kernel

end StyleGraph.Stable
