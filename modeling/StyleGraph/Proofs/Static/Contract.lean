import Mathlib.Data.List.Nodup
import StyleGraph.Proofs.Static.Naming
import StyleGraph.Proofs.Static.Tree
import StyleGraph.Static.Theme

/-!
# Contracts of themes

A contract is made by putting a fresh variable at every leaf of a tree of tokens. The variables are
numbered in the order of the leaves, and each is named after the keys that lead to it
(`made_of_contract`). Where the hash tells the numbers apart, no variable stands at two leaves
(`isContract_of_numbered`), and none was generated before (`ne_of_numbered`).
-/

set_option autoImplicit false

namespace StyleGraph.Static

/-! ## Names that were generated -/

namespace State

/-- The state after names were generated for some bindings. -/
def named (state : State) (naming : Naming) (bindings : List (Option String)) : State :=
  { state with names := state.names ++ naming.numbered state.ordinal bindings }

variable (state : State) (naming : Naming) (bindings more : List (Option String))

/-- Without bindings nothing is generated. -/
theorem named_nil : state.named naming [] = state := by
  rw [named, Naming.numbered, List.zipIdx_nil, List.map_nil, List.append_nil]

/-- Each name takes one number. -/
theorem ordinal_named : (state.named naming bindings).ordinal = state.ordinal + bindings.length := by
  rw [ordinal, named, List.length_append, Naming.length_numbered]
  rfl

/-- Names that are generated one after the other are numbered as if they were generated at once.
This is what the recursion over a tree of tokens needs. -/
theorem named_append :
    state.named naming (bindings ++ more) = (state.named naming bindings).named naming more := by
  rw [named, Naming.numbered_append, ← List.append_assoc, ← ordinal_named]
  rfl

end State

/-! ## Contracts -/

/-- Texts and numbers. -/
def IsToken : Value → Prop
  | .text _ | .number _ => True
  | _ => False

/-- The variable with a name. -/
def variableNamed (name : String) : Value := .text ("var(--" ++ name ++ ")")

def IsVariable (value : Value) : Prop := ∃ name, value = variableNamed name

/-- The name of a variable can be read off its text, since what is written around it is always the
same. -/
theorem variableNamed_inj {name other : String} (same : variableNamed name = variableNamed other) :
    name = other := by
  have texts := congrArg String.toList (Value.text.inj same)
  simp only [String.toList_append] at texts
  exact String.toList_inj.mp (List.append_cancel_left (List.append_cancel_right texts))

/-- A tree of variables, each of which stands at one leaf only. -/
structure IsContract (contract : Value) : Prop where
  tree : contract.IsTree IsVariable
  nodup : (contract.leaves.map Leaf.value).Nodup

namespace Theme

/-- The binding that a variable is made for, at the end of keys. -/
def leafBinding (binding : Option String) (keys : List String) : Option String :=
  keys.foldl (fun binding key => some (partName binding key)) binding

/-- The bindings that the variables for leaves are made for. -/
def leafBindings (binding : Option String) (leaves : List Leaf) : List (Option String) :=
  leaves.map fun leaf => leafBinding binding leaf.keys

/-- The leaves of two entries, one after the other. -/
theorem leafBindings_append (binding : Option String) (leaves more : List Leaf) :
    leafBindings binding (leaves ++ more) =
      leafBindings binding leaves ++ leafBindings binding more :=
  List.map_append

/-- A key in front of all leaves is a part of the binding. -/
theorem leafBindings_within (binding : Option String) (key : String) (leaves : List Leaf) :
    leafBindings binding (leaves.map (Leaf.within [key])) =
      leafBindings (some (partName binding key)) leaves :=
  List.map_map

/-- The variable for a leaf of a tree of tokens, with its running number. -/
def numberedLeaf (naming : Naming) (binding : Option String) (numbered : Leaf × Nat) : Leaf :=
  ⟨numbered.1.keys,
    variableNamed (naming.name numbered.2 (leafBinding binding numbered.1.keys))⟩

/-- The variables for leaves, numbered from the given number on. -/
def numberedLeaves (naming : Naming) (binding : Option String) (ordinal : Nat)
    (leaves : List Leaf) : List Leaf :=
  (leaves.zipIdx ordinal).map (numberedLeaf naming binding)

variable {naming : Naming}

/-- Numbering goes on where it ended. -/
theorem numberedLeaves_append (binding : Option String) (ordinal : Nat)
    (leaves more : List Leaf) :
    numberedLeaves naming binding ordinal (leaves ++ more) =
      numberedLeaves naming binding ordinal leaves ++
        numberedLeaves naming binding (ordinal + leaves.length) more := by
  rw [numberedLeaves, List.zipIdx_append, List.map_append]
  rfl

/-- A key in front of all leaves is a part of the binding, so numbering leaves below a key is
numbering the leaves of the part for the longer binding. -/
theorem numberedLeaves_within (binding : Option String) (key : String) (ordinal : Nat)
    (leaves : List Leaf) :
    numberedLeaves naming binding ordinal (leaves.map (Leaf.within [key])) =
      (numberedLeaves naming (some (partName binding key)) ordinal leaves).map
        (Leaf.within [key]) := by
  rw [numberedLeaves, List.zipIdx_map, List.map_map, numberedLeaves, List.map_map]
  rfl

/-- What a contract made of tokens is like: it has their shape and a variable at every leaf, with
consecutive numbers. -/
structure Made (naming : Naming) (binding : Option String) (ordinal : Nat) (tokens made : Value) :
    Prop where
  shape : made.shape = tokens.shape
  leaves : made.leaves = numberedLeaves naming binding ordinal tokens.leaves
  tree : tokens.IsTree IsToken → made.IsTree IsVariable

/-- What the entries of a contract are like. -/
structure MadeEntries (naming : Naming) (binding : Option String) (ordinal : Nat)
    (entries made : Entries) : Prop where
  shape : shapeOfEntries made = shapeOfEntries entries
  leaves : leavesOfEntries made = numberedLeaves naming binding ordinal (leavesOfEntries entries)
  trees : AreTrees IsToken entries → AreTrees IsVariable made

/-- The contract of the entries of a tree is put together from that of the first entry and that of
the others, whose numbers follow. -/
theorem Made.cons {binding : Option String} {ordinal : Nat} {key : String}
    {value part : Value} {rest more : Entries}
    (here : Made naming (some (partName binding key)) ordinal value part)
    (there : MadeEntries naming binding (ordinal + value.leaves.length) rest more) :
    MadeEntries naming binding ordinal ((key, value) :: rest) ((key, part) :: more) := by
  refine ⟨?_, ?_, fun ⟨tree, trees⟩ => ⟨here.tree tree, there.trees trees⟩⟩
  · rw [shapeOfEntries, shapeOfEntries, here.shape, there.shape]
  · rw [leavesOfEntries, leavesOfEntries, numberedLeaves_append, numberedLeaves_within,
      here.leaves, there.leaves, List.length_map]

mutual

/-- **A contract that was made** has a variable for every leaf of its tokens, with consecutive
numbers. The names of these variables are listed, and nothing else is done to the state. -/
theorem made_of_contract : ∀ {tokens made : Value} {binding : Option String} {state final : State},
    contract naming binding tokens state = .ok (made, final) →
      final = state.named naming (leafBindings binding tokens.leaves) ∧
        Made naming binding state.ordinal tokens made
  | .object entries, _, binding, state, _, done => by
    rw [contract] at done
    obtain ⟨⟨parts, _⟩, parted, same⟩ := bind_eq_ok_iff.mp done
    obtain ⟨rfl, made⟩ := made_of_contractEntries parted
    cases same
    exact ⟨rfl, congrArg Value.object made.shape, made.leaves,
      fun tree => ⟨Value.nodupKeys_of_shape made.shape tree.1, made.trees tree.2⟩⟩
  | .array _, _, _, _, _, done => by
    rw [contract] at done
    cases done
  | .text _, _, _, _, _, done | .number _, _, _, _, _, done | .classes _, _, _, _, _, done
  | .undefined, _, _, _, _, done | .unresolved _, _, _, _, _, done => by
    rw [contract] at done
    cases done
    exact ⟨rfl, rfl, rfl, fun _ => ⟨_, rfl⟩⟩

/-- The same for the entries of a tree, which the recursion goes through. The numbers of the rest
begin behind those of the first entry, so the two lists of leaves join. -/
theorem made_of_contractEntries : ∀ {entries : List (String × Value)} {made : Entries}
    {binding : Option String} {state final : State},
    contractEntries naming binding entries state = .ok (made, final) →
      final = state.named naming (leafBindings binding (leavesOfEntries entries)) ∧
        MadeEntries naming binding state.ordinal entries made
  | [], _, _, state, _, done => by
    cases done
    exact ⟨(state.named_nil naming).symm, rfl, rfl, fun _ => trivial⟩
  | (key, value) :: rest, _, binding, state, _, done => by
    rw [contractEntries] at done
    obtain ⟨⟨part, _⟩, here, rest⟩ := bind_eq_ok_iff.mp done
    obtain ⟨rfl, made⟩ := made_of_contract here
    obtain ⟨⟨more, _⟩, there, same⟩ := bind_eq_ok_iff.mp rest
    obtain ⟨rfl, others⟩ := made_of_contractEntries there
    cases same
    rw [State.ordinal_named, leafBindings, List.length_map] at others
    refine ⟨?_, made.cons others⟩
    rw [leavesOfEntries, leafBindings_append, leafBindings_within, State.named_append]

end

mutual

/-- Trees of tokens have contracts. -/
theorem succeeds_contract : ∀ {tokens : Value} (binding : Option String) (state : State),
    tokens.IsTree IsToken → Succeeds (contract naming binding tokens state)
  | .object entries, binding, state, tree => by
    obtain ⟨made, done⟩ := succeeds_contractEntries binding state tree.2
    rw [contract]
    exact ⟨_, bind_eq_ok_iff.mpr ⟨made, done, rfl⟩⟩
  | .text _, _, _, _ | .number _, _, _, _ => by
    rw [contract]
    exact ⟨_, rfl⟩

/-- The entries of such a tree have contracts one after the other. -/
theorem succeeds_contractEntries : ∀ {entries : List (String × Value)} (binding : Option String)
    (state : State), AreTrees IsToken entries →
      Succeeds (contractEntries naming binding entries state)
  | [], _, _, _ => ⟨_, rfl⟩
  | (key, value) :: rest, binding, state, trees => by
    obtain ⟨⟨part, middle⟩, here⟩ :=
      succeeds_contract (some (partName binding key)) state trees.1
    obtain ⟨more, there⟩ := succeeds_contractEntries binding middle trees.2
    rw [contractEntries]
    exact ⟨_, bind_eq_ok_iff.mpr ⟨_, here, bind_eq_ok_iff.mpr ⟨more, there, rfl⟩⟩⟩

end

/-- The leaves of a contract are named with numbers that were not used before. -/
theorem exists_of_mem_numberedLeaves {binding : Option String} {ordinal : Nat}
    {leaves : List Leaf} {leaf : Leaf} (mem : leaf ∈ numberedLeaves naming binding ordinal leaves) :
    ∃ number part, ordinal ≤ number ∧ number < ordinal + leaves.length ∧
      leaf.value = variableNamed (naming.name number part) := by
  obtain ⟨⟨token, number⟩, listed, rfl⟩ := List.mem_map.mp mem
  exact ⟨number, _, List.le_snd_of_mem_zipIdx listed, List.snd_lt_add_of_mem_zipIdx listed, rfl⟩

/-- Where the hash tells the numbers apart, no variable stands at two leaves. A variable is known by
its digits, and the digits by the number. -/
theorem isContract_of_numbered {made : Value} {binding : Option String} {ordinal : Nat}
    {leaves : List Leaf} (tree : made.IsTree IsVariable)
    (numbered : made.leaves = numberedLeaves naming binding ordinal leaves)
    (distinct : naming.DistinctBelow (ordinal + leaves.length)) : IsContract made := by
  refine ⟨tree, ?_⟩
  have numbers : ((leaves.zipIdx ordinal).map Prod.snd).Nodup := by
    rw [List.zipIdx_map_snd]
    exact List.nodup_range'
  rw [numbered, numberedLeaves, List.map_map]
  refine List.Nodup.map_on (fun one mem other also same => ?_) (List.Nodup.of_map _ numbers)
  refine List.inj_on_of_nodup_map numbers mem also ?_
  exact distinct.eq_of_name (List.snd_lt_add_of_mem_zipIdx mem)
    (List.snd_lt_add_of_mem_zipIdx also) (variableNamed_inj same)

/-- Where the hash tells the numbers apart, no variable of a contract was generated before. -/
theorem ne_of_numbered {binding : Option String} {ordinal : Nat} {leaves : List Leaf}
    (distinct : naming.DistinctBelow (ordinal + leaves.length)) {leaf : Leaf}
    (mem : leaf ∈ numberedLeaves naming binding ordinal leaves) {earlier : Nat}
    (before : earlier < ordinal) (part : Option String) :
    leaf.value ≠ variableNamed (naming.name earlier part) := by
  obtain ⟨number, own, fresh, below, named⟩ := exists_of_mem_numberedLeaves mem
  intro same
  have equal := distinct.eq_of_name below (Nat.lt_add_right _ before)
    (variableNamed_inj (named.symm.trans same))
  omega

end Theme

end StyleGraph.Static
