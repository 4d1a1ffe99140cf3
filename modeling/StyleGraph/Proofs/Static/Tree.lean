import StyleGraph.Proofs.Static.Recording

/-!
# Trees of nested objects

Objects and lists are the inner nodes of a value, and all else are its leaves. Each leaf stands at
the keys that lead to it; the items of a list stand where the list does. `Value.leaves` lists them
in the order in which they are written, whatever the keys mean.

A value without lists is a tree: its inner nodes are objects, and what else it has are leaves. A
place in it is given by the keys that lead there (`Value.at?`), and its shape is what is left when
the leaves are forgotten.
-/

set_option autoImplicit false

namespace StyleGraph.Static

/-! ## Leaves -/

/-- A leaf of a value, with the keys that lead to it. -/
structure Leaf where
  keys : List String
  value : Value

namespace Leaf

/-- A leaf of a value that itself stands at the given keys. -/
def within (keys : List String) (leaf : Leaf) : Leaf := ⟨keys ++ leaf.keys, leaf.value⟩

@[simp] theorem value_within (keys : List String) (leaf : Leaf) :
    (leaf.within keys).value = leaf.value := rfl

@[simp] theorem keys_within (keys : List String) (leaf : Leaf) :
    (leaf.within keys).keys = keys ++ leaf.keys := rfl

/-- Keys in front of keys in front of a leaf. -/
theorem within_within (keys more : List String) (leaf : Leaf) :
    (leaf.within more).within keys = leaf.within (keys ++ more) := by
  simp [within]

end Leaf

mutual

/-- The leaves of a value, in the order in which they are written. -/
def Value.leaves : Value → List Leaf
  | .object entries => leavesOfEntries entries
  | .array items => leavesOfItems items
  | value => [⟨[], value⟩]

/-- The leaves of the values of an object. -/
def leavesOfEntries : List (String × Value) → List Leaf
  | [] => []
  | (key, value) :: rest => value.leaves.map (Leaf.within [key]) ++ leavesOfEntries rest

/-- The leaves of the items of a list. -/
def leavesOfItems : List Value → List Leaf
  | [] => []
  | value :: rest => value.leaves ++ leavesOfItems rest

end

/-- The leaves of an object are those of its values, each with its key in front. -/
theorem leavesOfEntries_eq (entries : Entries) : leavesOfEntries entries =
    entries.flatMap fun entry => entry.2.leaves.map (Leaf.within [entry.1]) := by
  induction entries with
  | nil => rfl
  | cons entry entries ih => rw [leavesOfEntries, ih, List.flatMap_cons]

/-- The leaves of a list are those of its items, without keys. -/
theorem leavesOfItems_eq (items : List Value) :
    leavesOfItems items = items.flatMap Value.leaves := by
  induction items with
  | nil => rfl
  | cons item items ih => rw [leavesOfItems, ih, List.flatMap_cons]

/-! ## Trees -/

namespace Value

def isObject : Value → Bool
  | .object _ => true
  | _ => false

/-- What stands at the end of keys in nested objects. -/
def at? : Value → List String → Option Value
  | value, [] => some value
  | .object entries, key :: keys => (Entries.get? entries key).bind fun value => value.at? keys
  | _, _ :: _ => none

end Value

mutual

/-- A value with its leaves forgotten. -/
def Value.shape : Value → Value
  | .object entries => .object (shapeOfEntries entries)
  | .array _ => .array []
  | _ => .undefined

/-- Entries with the leaves of their values forgotten. -/
def shapeOfEntries : List (String × Value) → List (String × Value)
  | [] => []
  | (key, value) :: rest => (key, value.shape) :: shapeOfEntries rest

end

mutual

/-- Objects nested in objects, each key given once, with leaves of one kind. -/
def Value.IsTree (isLeaf : Value → Prop) : Value → Prop
  | .object entries => Entries.NodupKeys entries ∧ AreTrees isLeaf entries
  | .array _ => False
  | value => isLeaf value

/-- The values of entries are trees. -/
def AreTrees (isLeaf : Value → Prop) : List (String × Value) → Prop
  | [] => True
  | (_, value) :: rest => value.IsTree isLeaf ∧ AreTrees isLeaf rest

end

variable {allowed : Value → Prop}

/-- Entries are trees if each value is one. -/
theorem areTrees_iff {entries : Entries} :
    AreTrees allowed entries ↔ ∀ entry ∈ entries, entry.2.IsTree allowed := by
  induction entries with
  | nil => simp [AreTrees]
  | cons entry entries ih => rw [AreTrees, List.forall_mem_cons, ih]

/-- A leaf of an object lies below one of its keys. -/
theorem mem_leavesOfEntries_iff {entries : Entries} {keys : List String} {part : Value} :
    ⟨keys, part⟩ ∈ leavesOfEntries entries ↔ ∃ key value, (key, value) ∈ entries ∧
      ∃ rest, keys = key :: rest ∧ ⟨rest, part⟩ ∈ value.leaves := by
  rw [leavesOfEntries_eq, List.mem_flatMap]
  constructor
  · rintro ⟨⟨key, value⟩, listed, mem⟩
    obtain ⟨⟨rest, _⟩, inner, same⟩ := List.mem_map.mp mem
    cases same
    exact ⟨key, value, listed, rest, rfl, inner⟩
  · rintro ⟨key, value, listed, rest, rfl, inner⟩
    exact ⟨(key, value), listed, List.mem_map.mpr ⟨_, inner, rfl⟩⟩

/-! ## Places -/

namespace Value

@[simp] theorem at?_nil (value : Value) : value.at? [] = some value := by
  cases value <;> rfl

/-- A path into an object goes through the entry of its first key. -/
theorem at?_object (entries : Entries) (key : String) (keys : List String) :
    at? (.object entries) (key :: keys) =
      (entries.get? key).bind fun value => value.at? keys := rfl

/-- What is an object has entries. -/
theorem exists_of_isObject {value : Value} (isObject : value.isObject = true) :
    ∃ entries, value = .object entries := by
  cases value with
  | object entries => exact ⟨entries, rfl⟩
  | _ => cases isObject

/-- There is nothing below what is no object. -/
theorem at?_cons_of_plain {value : Value} (plain : value.isObject = false) (key : String)
    (keys : List String) : value.at? (key :: keys) = none := by
  cases value with
  | object entries => cases plain
  | _ => rfl

namespace IsTree

variable {value part : Value} {keys : List String}

/-- What stands in a tree is a tree. -/
theorem at? (tree : value.IsTree allowed) (found : value.at? keys = some part) :
    part.IsTree allowed := by
  induction keys generalizing value with
  | nil =>
    rw [at?_nil] at found
    exact Option.some.inj found ▸ tree
  | cons key keys ih =>
    cases value with
    | object entries =>
      obtain ⟨inner, looked, below⟩ := Option.bind_eq_some_iff.mp found
      exact ih (areTrees_iff.mp tree.2 _ (Entries.mem_of_get? looked)) below
    | _ => cases found

/-- A tree that is no object is a leaf, and allowed as such. -/
theorem allowed_of_plain (tree : value.IsTree allowed) (plain : value.isObject = false) :
    allowed value := by
  cases value with
  | object entries => cases plain
  | array items => exact tree.elim
  | _ => exact tree

/-- A tree that is no object is its only leaf. -/
theorem leaves_of_plain (tree : value.IsTree allowed) (plain : value.isObject = false) :
    value.leaves = [⟨[], value⟩] := by
  cases value with
  | object entries => cases plain
  | array items => exact tree.elim
  | _ => rfl

/-- The leaves of a tree are what stands in it and is no object. The induction is on the keys that
lead to the leaf. -/
theorem mem_leaves_iff (tree : value.IsTree allowed) :
    ⟨keys, part⟩ ∈ value.leaves ↔ value.at? keys = some part ∧ part.isObject = false := by
  induction keys generalizing value with
  | nil =>
    rw [at?_nil]
    cases plain : value.isObject with
    | false =>
      rw [tree.leaves_of_plain plain, List.mem_singleton, Leaf.mk.injEq, Option.some.injEq]
      constructor
      · rintro ⟨-, rfl⟩
        exact ⟨rfl, plain⟩
      · rintro ⟨rfl, -⟩
        exact ⟨rfl, rfl⟩
    | true =>
      obtain ⟨entries, rfl⟩ := exists_of_isObject plain
      constructor
      · intro mem
        obtain ⟨_, _, _, _, same, _⟩ := mem_leavesOfEntries_iff.mp mem
        cases same
      · rintro ⟨found, other⟩
        rw [← Option.some.inj found] at other
        cases other
  | cons key keys ih =>
    cases plain : value.isObject with
    | false =>
      rw [tree.leaves_of_plain plain, at?_cons_of_plain plain]
      simp
    | true =>
      obtain ⟨entries, rfl⟩ := exists_of_isObject plain
      have inner {value : Value} (mem : (key, value) ∈ entries) : value.IsTree allowed :=
        areTrees_iff.mp tree.2 _ mem
      rw [at?_object, Option.bind_eq_some_iff]
      constructor
      · intro mem
        obtain ⟨_, value, listed, _, same, mem⟩ := mem_leavesOfEntries_iff.mp mem
        cases same
        obtain ⟨found, plain⟩ := (ih (inner listed)).mp mem
        exact ⟨⟨value, tree.1.get?_of_mem listed, found⟩, plain⟩
      · rintro ⟨⟨value, looked, found⟩, plain⟩
        have listed := Entries.mem_of_get? looked
        exact mem_leavesOfEntries_iff.mpr
          ⟨key, value, listed, keys, rfl, (ih (inner listed)).mpr ⟨found, plain⟩⟩

end IsTree

/-! ## Shapes -/

/-- The shape of an object is an object. -/
theorem isObject_shape (value : Value) : value.shape.isObject = value.isObject := by
  cases value <;> rfl

/-- A shape has the keys of the object. -/
theorem keys_shapeOfEntries (entries : Entries) :
    (shapeOfEntries entries).map Prod.fst = entries.map Prod.fst := by
  induction entries with
  | nil => rfl
  | cons entry entries ih => rw [shapeOfEntries, List.map_cons, ih, List.map_cons]

/-- Objects of one shape have the same keys. -/
theorem nodupKeys_of_shape {entries others : Entries}
    (same : shapeOfEntries entries = shapeOfEntries others) (nodup : others.NodupKeys) :
    entries.NodupKeys := by
  rw [Entries.NodupKeys, ← keys_shapeOfEntries, same, keys_shapeOfEntries]
  exact nodup

/-- What a shape has under a key is the shape of what the object has there. -/
theorem get?_shapeOfEntries (entries : Entries) (key : String) :
    Entries.get? (shapeOfEntries entries) key = (entries.get? key).map Value.shape := by
  induction entries with
  | nil => rfl
  | cons entry entries ih =>
    rw [shapeOfEntries, Entries.get?, Entries.get?]
    split
    next => rfl
    next => exact ih

/-- The same at the end of several keys. -/
theorem at?_shape (value : Value) (keys : List String) :
    value.shape.at? keys = (value.at? keys).map Value.shape := by
  induction keys generalizing value with
  | nil => rw [at?_nil, at?_nil, Option.map_some]
  | cons key keys ih =>
    cases value with
    | object entries =>
      rw [shape, at?_object, at?_object, get?_shapeOfEntries]
      cases Entries.get? entries key with
      | none => rfl
      | some value => exact ih value
    | _ => rfl

/-- Values of one shape have objects and leaves at the same places. -/
theorem exists_at?_of_shape {value other part : Value} (same : value.shape = other.shape)
    {keys : List String} (found : value.at? keys = some part) :
    ∃ there, other.at? keys = some there ∧ part.isObject = there.isObject := by
  have shapes := at?_shape other keys
  rw [← same, at?_shape, found, Option.map_some] at shapes
  obtain ⟨there, looked, shaped⟩ := Option.map_eq_some_iff.mp shapes.symm
  refine ⟨there, looked, ?_⟩
  rw [← isObject_shape part, ← shaped, isObject_shape]

end Value

end StyleGraph.Static
