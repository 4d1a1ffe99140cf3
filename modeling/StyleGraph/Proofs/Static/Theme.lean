import Mathlib.Data.List.Forall2
import StyleGraph.Proofs.Static.Contract
import StyleGraph.Proofs.Text.Cut
import StyleGraph.Static.Api

/-!
# Themes and their contracts

A theme gives each variable of a contract the value that its tokens have at the place of the
variable. That goes through just if the tokens have a leaf where the contract has one and an object
where it has one (`Fits`), and the rule that is recorded then has one declaration for each variable
(`Fills`). What else the tokens have, and in what order they have it, makes no difference
(`createTheme_fills`).
-/

set_option autoImplicit false

namespace StyleGraph.Static

namespace Entries

/-- A key that is new goes to the end, so entries with new keys keep their order. -/
theorem insert_of_fresh {entries : Entries} {key : String} (fresh : key ∉ entries.map Prod.fst)
    (value : Value) : entries.insert key value = entries ++ [(key, value)] := by
  induction entries with
  | nil => rfl
  | cons entry entries ih =>
    obtain ⟨other, later⟩ := List.ne_and_not_mem_of_not_mem_cons fresh
    rw [insert, if_neg (Ne.symm other), ih later, List.cons_append]

/-- Entries whose keys are new, each given once, are added at the end. So nothing that is assigned
is replaced by a later entry. -/
theorem extend_of_fresh {entries more : Entries} (nodup : (entries ++ more).NodupKeys) :
    entries.extend more = entries ++ more := by
  unfold extend
  induction more generalizing entries with
  | nil => rw [List.foldl_nil, List.append_nil]
  | cons entry more ih =>
    rw [List.append_cons] at nodup ⊢
    have fresh : entry.1 ∉ entries.map Prod.fst := by
      rw [NodupKeys, List.map_append, List.map_append] at nodup
      exact fun mem => (List.nodup_append.mp (List.nodup_append.mp nodup).1).2.2
        _ mem _ (List.mem_singleton.mpr rfl) rfl
    rw [← insert_of_fresh fresh] at nodup ⊢
    exact ih nodup

/-- Objects are added one after the other. -/
theorem extend_append (entries more others : Entries) :
    entries.extend (more ++ others) = (entries.extend more).extend others := List.foldl_append

end Entries

namespace Theme

open Eval

/-! ## What is assigned -/

/-- Wherever a contract has something, the tokens have something too, and an object where it has
one. -/
def Reaches (contract tokens : Value) : Prop :=
  ∀ keys part, contract.at? keys = some part → ∃ value, tokens.at? keys = some value ∧
    (part.isObject = true → value.isObject = true)

/-- The tokens have a leaf wherever a contract has a leaf, and an object wherever it has one. -/
def Fits (contract tokens : Value) : Prop :=
  ∀ keys part, contract.at? keys = some part → ∃ value, tokens.at? keys = some value ∧
    part.isObject = value.isObject

/-- The value that tokens give the variable at a leaf of a contract. -/
def assignment? (tokens : Value) (leaf : Leaf) : Option (String × Value) :=
  match leaf.value with
  | .text unset => (tokens.at? leaf.keys).map fun value => (unset, value)
  | _ => none

/-- The values that tokens give the variables of a contract, in the order of the contract. -/
def assignments (contract tokens : Value) : Entries :=
  contract.leaves.filterMap (assignment? tokens)

/-- A variable is reached whatever the tokens are, even if these are an object. -/
theorem reaches_text (unset : String) (tokens : Value) : Reaches (.text unset) tokens := by
  intro keys part found
  cases keys with
  | nil =>
    refine ⟨tokens, Value.at?_nil tokens, fun isObject => ?_⟩
    cases found
    cases isObject
  | cons key keys => cases found

/-- An object of the contract asks for an object of the tokens. -/
theorem not_reaches_object {parts : Entries} {tokens : Value} (plain : tokens.isObject = false) :
    ¬Reaches (.object parts) tokens := by
  intro reaches
  obtain ⟨value, found, object⟩ := reaches [] _ rfl
  rw [Value.at?_nil] at found
  rw [← Option.some.inj found, plain] at object
  cases object rfl

/-- Objects reach what the values of their keys reach. A key that occurs once has one value, so the
way into the object is the way into that value. -/
theorem reaches_object_iff {parts tokens : Entries} (nodup : parts.NodupKeys) :
    Reaches (.object parts) (.object tokens) ↔ ∀ entry ∈ parts,
      ∃ value, tokens.get? entry.1 = some value ∧ Reaches entry.2 value := by
  constructor
  · intro reaches entry mem
    have looked := nodup.get?_of_mem mem
    obtain ⟨value, found, -⟩ := reaches [entry.1] entry.2 (by
      rw [Value.at?_object, looked, Option.bind_some, Value.at?_nil])
    rw [Value.at?_object] at found
    obtain ⟨value, found, -⟩ := Option.bind_eq_some_iff.mp found
    refine ⟨value, found, fun keys part here => ?_⟩
    obtain ⟨inner, there, object⟩ := reaches (entry.1 :: keys) part (by
      rw [Value.at?_object, looked, Option.bind_some, here])
    rw [Value.at?_object, found] at there
    exact ⟨inner, there, object⟩
  · intro all keys part found
    cases keys with
    | nil => exact ⟨.object tokens, rfl, fun _ => rfl⟩
    | cons key keys =>
      rw [Value.at?_object] at found
      obtain ⟨inner, looked, found⟩ := Option.bind_eq_some_iff.mp found
      obtain ⟨value, given, reaches⟩ := all _ (Entries.mem_of_get? looked)
      rw [Value.at?_object, given]
      exact reaches keys part found

/-- What a leaf below a key is given is looked up below that key of the tokens. -/
theorem assignment?_within {key : String} {tokens : Entries} {value : Value}
    (found : tokens.get? key = some value) (leaf : Leaf) :
    assignment? (.object tokens) (leaf.within [key]) = assignment? value leaf := by
  simp only [assignment?, Leaf.value_within, Leaf.keys_within, List.singleton_append,
    Value.at?_object, found, Option.bind_some]

/-- The first entry of a contract asks for its token, and the others go on with what has been
assigned. -/
theorem assignEntries_cons {key : String} {part : Value} {rest tokens given result : Entries} :
    assignEntries ((key, part) :: rest) tokens given = .ok result ↔
      ∃ value, tokens.get? key = some value ∧ ∃ middle, assign part value given = .ok middle ∧
        assignEntries rest tokens middle = .ok result := by
  rw [assignEntries]
  cases tokens.get? key with
  | none => simp
  | some value =>
    cases done : assign part value given with
    | error fault => simp [done]
    | ok middle => simp [done]

/-- All leaves below a key are given what the tokens below that key say. -/
theorem filterMap_within {key : String} {tokens : Entries} {value : Value}
    (found : tokens.get? key = some value) (part : Value) :
    (part.leaves.map (Leaf.within [key])).filterMap (assignment? (.object tokens)) =
      assignments part value := by
  rw [List.filterMap_map, assignments]
  exact List.filterMap_congr fun leaf _ => assignment?_within found leaf

mutual

/-- **An assignment goes through** just if the tokens reach all of the contract, and then gives
each variable what the tokens have in its place. The recursion is on the contract; a token may still
be an object where the contract has a variable, and is refused only when it is declared. -/
theorem assign_eq_ok_iff : ∀ {contract tokens : Value} {given result : Entries},
    contract.IsTree IsVariable → tokens.IsTree IsToken →
      (assign contract tokens given = .ok result ↔
        Reaches contract tokens ∧ result = given.extend (assignments contract tokens))
  | .object parts, .object tokens, given, result, tree, values => by
    rw [assign, assignEntries_eq_ok_iff tree.2 values.2, reaches_object_iff tree.1]
    rfl
  | .object parts, .text _, _, _, _, _ | .object parts, .number _, _, _, _, _ => by
    refine iff_of_false ?_ fun reached => not_reaches_object rfl reached.1
    simp [assign]
  | .text unset, tokens, given, result, _, _ => by
    have assigned : assignments (.text unset) tokens = [(unset, tokens)] := by
      simp [assignments, Value.leaves, assignment?]
    rw [assign, assigned, Except.ok.injEq]
    exact ⟨fun same => ⟨reaches_text unset tokens, same.symm⟩, fun ⟨_, same⟩ => same.symm⟩

/-- The same for the entries of a contract, which the recursion goes through. The tokens are looked
up by their keys, so their order makes no difference. -/
theorem assignEntries_eq_ok_iff : ∀ {parts : List (String × Value)} {tokens given result : Entries},
    AreTrees IsVariable parts → AreTrees IsToken tokens →
      (assignEntries parts tokens given = .ok result ↔
        (∀ entry ∈ parts, ∃ value, tokens.get? entry.1 = some value ∧ Reaches entry.2 value) ∧
          result = given.extend
            ((leavesOfEntries parts).filterMap (assignment? (.object tokens))))
  | [], tokens, given, result, _, _ => by
    rw [assignEntries, Except.ok.injEq]
    simp [leavesOfEntries, Entries.extend, eq_comm]
  | (key, part) :: rest, tokens, given, result, trees, values => by
    have below {value : Value} (found : tokens.get? key = some value) : value.IsTree IsToken :=
      areTrees_iff.mp values _ (Entries.mem_of_get? found)
    rw [assignEntries_cons, List.forall_mem_cons, leavesOfEntries, List.filterMap_append]
    constructor
    · rintro ⟨value, found, middle, here, there⟩
      obtain ⟨reaches, rfl⟩ := (assign_eq_ok_iff trees.1 (below found)).mp here
      obtain ⟨others, rfl⟩ := (assignEntries_eq_ok_iff trees.2 values).mp there
      refine ⟨⟨⟨value, found, reaches⟩, others⟩, ?_⟩
      rw [filterMap_within found, Entries.extend_append]
    · rintro ⟨⟨⟨value, found, reaches⟩, others⟩, rfl⟩
      refine ⟨value, found, _, (assign_eq_ok_iff trees.1 (below found)).mpr ⟨reaches, rfl⟩,
        (assignEntries_eq_ok_iff trees.2 values).mpr ⟨others, ?_⟩⟩
      rw [filterMap_within found, Entries.extend_append]

end

/-- What is assigned is assigned to the variable at the leaf. -/
theorem value_of_assignment? {tokens : Value} {leaf : Leaf} {entry : String × Value}
    (assigned : assignment? tokens leaf = some entry) : leaf.value = .text entry.1 := by
  unfold assignment? at assigned
  split at assigned
  next unset same =>
    obtain ⟨value, -, rfl⟩ := Option.map_eq_some_iff.mp assigned
    exact same
  next => cases assigned

/-- Distinct variables are given distinct values. -/
theorem nodupKeys_assignments {contract : Value} (isContract : IsContract contract)
    (tokens : Value) : (assignments contract tokens).NodupKeys := by
  have nodup := isContract.nodup
  rw [List.Nodup, List.pairwise_map] at nodup
  rw [Entries.NodupKeys, List.Nodup, List.pairwise_map, assignments, List.pairwise_filterMap]
  refine nodup.imp fun {leaf other} distinct entry here entry' there same => distinct ?_
  rw [value_of_assignment? here, value_of_assignment? there, same]

/-! ## What is declared -/

/-- A value is the variable of a custom property. -/
def StandsFor (value : Value) (property : String) : Prop :=
  ∃ name, value = variableNamed name ∧ property = "--" ++ name

/-- The declaration for a leaf of a contract: it gives the variable there the text that the tokens
have in its place. -/
structure Assigns (tokens : Value) (leaf : Leaf) (declaration : Declaration) : Prop where
  property : StandsFor leaf.value declaration.1
  text : ∃ value, tokens.at? leaf.keys = some value ∧ value.asText? = some declaration.2

/-- One declaration for each variable of a contract, in the order of the contract. -/
def Fills (contract tokens : Value) (declared : List Declaration) : Prop :=
  List.Forall₂ (Assigns tokens) contract.leaves declared

/-- The reference to a variable is undone where the variable is declared. -/
theorem customProperty_variable (name : String) :
    customProperty ("var(--" ++ name ++ ")") = "--" ++ name := by
  have written : ("var(--" ++ name ++ ")").toList =
      "var(".toList ++ (("--" ++ name).toList ++ [')']) := by simp
  have inner : Text.stripEnd? [')'] (("--" ++ name).toList ++ [')']) = some ("--" ++ name).toList :=
    Text.stripEnd?_eq_some_iff.mpr rfl
  rw [customProperty]
  simp only [written, Text.stripStart?_append, Option.bind_some, inner, String.ofList_toList]

/-- A variable is declared with the text of its value if it has one. An object has none, and no
token is passed over. -/
theorem variableOf_eq_ok_iff {name : String} {value : Value} (tree : value.IsTree IsToken)
    {found : Option Declaration} :
    variableOf ("var(--" ++ name ++ ")", value) = .ok found ↔
      ∃ text, value.asText? = some text ∧ found = some ("--" ++ name, text) := by
  unfold variableOf
  rw [customProperty_variable]
  cases value with
  | text value => simp [Value.asText?, eq_comm]
  | number value => simp [Value.asText?, eq_comm]
  | object entries => simp [Value.asText?]
  | _ => exact tree.elim

/-- What is declared for leaves that the tokens reach. By induction on the leaves, each of which
gives one declaration or stops the whole. -/
theorem collect_eq_ok_iff {tokens : Value} {leaves : List Leaf} {declared : List Declaration}
    (reached : ∀ leaf ∈ leaves, IsVariable leaf.value ∧
      ∃ value, tokens.at? leaf.keys = some value ∧ value.IsTree IsToken) :
    collect variableOf (leaves.filterMap (assignment? tokens)) = .ok declared ↔
      List.Forall₂ (Assigns tokens) leaves declared := by
  induction leaves generalizing declared with
  | nil =>
    rw [List.forall₂_nil_left_iff, List.filterMap_nil, collect, Except.ok.injEq]
    exact eq_comm
  | cons leaf leaves ih =>
    obtain ⟨⟨⟨name, isVariable⟩, value, found, tree⟩, others⟩ := List.forall_mem_cons.mp reached
    have assigned : assignment? tokens leaf = some ("var(--" ++ name ++ ")", value) := by
      rw [assignment?, isVariable, found]
      rfl
    rw [List.filterMap_cons_some assigned, collect, List.forall₂_cons_left_iff, bind_eq_ok_iff]
    constructor
    · rintro ⟨here, first, rest⟩
      obtain ⟨text, spelled, rfl⟩ := (variableOf_eq_ok_iff tree).mp first
      obtain ⟨more, later, rest⟩ := bind_eq_ok_iff.mp rest
      cases rest
      exact ⟨_, _, ⟨⟨name, isVariable, rfl⟩, value, found, spelled⟩, (ih others).mp later, rfl⟩
    · rintro ⟨⟨property, text⟩, more, ⟨⟨name', same, rfl⟩, other, found', spelled⟩, later, rfl⟩
      cases variableNamed_inj (isVariable.symm.trans same)
      cases found.symm.trans found'
      exact ⟨_, (variableOf_eq_ok_iff tree).mpr ⟨text, spelled, rfl⟩,
        bind_eq_ok_iff.mpr ⟨more, (ih others).mpr later, rfl⟩⟩

/-- There is a list of partners if each item has one. -/
theorem exists_forall₂_iff {α β : Type} {holds : α → β → Prop} {items : List α} :
    (∃ others, List.Forall₂ holds items others) ↔ ∀ item ∈ items, ∃ other, holds item other := by
  induction items with
  | nil => exact ⟨nofun, fun _ => ⟨[], .nil⟩⟩
  | cons item items ih =>
    rw [List.forall_mem_cons, ← ih]
    constructor
    · rintro ⟨others, all⟩
      obtain ⟨other, others, here, rest, rfl⟩ := List.forall₂_cons_left_iff.mp all
      exact ⟨⟨other, here⟩, others, rest⟩
    · rintro ⟨⟨other, here⟩, others, rest⟩
      exact ⟨other :: others, .cons here rest⟩

/-- The tokens with a text are the leaves. -/
theorem exists_asText?_iff {value : Value} (tree : value.IsTree IsToken) :
    (∃ text, value.asText? = some text) ↔ value.isObject = false := by
  cases value with
  | text | number => exact ⟨fun _ => rfl, fun _ => ⟨_, rfl⟩⟩
  | object entries => exact ⟨nofun, nofun⟩
  | _ => exact tree.elim

/-- Tokens fit a contract just if they reach all of it and have a text for every variable. It splits
what the function checks in one pass, so that the two halves can be proved apart. -/
theorem fits_iff {contract tokens : Value} (vars : contract.IsTree IsVariable)
    (tree : tokens.IsTree IsToken) :
    Fits contract tokens ↔
      Reaches contract tokens ∧ ∃ declared, Fills contract tokens declared := by
  simp only [Fills, exists_forall₂_iff]
  constructor
  · refine fun fits => ⟨fun keys part here => ?_, fun leaf mem => ?_⟩
    · obtain ⟨value, found, same⟩ := fits keys part here
      exact ⟨value, found, fun object => same ▸ object⟩
    · obtain ⟨here, plain⟩ := vars.mem_leaves_iff.mp mem
      obtain ⟨value, found, same⟩ := fits leaf.keys leaf.value here
      obtain ⟨name, isVariable⟩ := (vars.at? here).allowed_of_plain plain
      obtain ⟨text, spelled⟩ := (exists_asText?_iff (tree.at? found)).mpr (same ▸ plain)
      exact ⟨("--" ++ name, text), ⟨name, isVariable, rfl⟩, value, found, spelled⟩
  · rintro ⟨reaches, assigns⟩ keys part here
    -- An object in the place of a variable has no text.
    obtain ⟨value, found, object⟩ := reaches keys part here
    refine ⟨value, found, ?_⟩
    cases plain : part.isObject with
    | true => exact (object plain).symm
    | false =>
      obtain ⟨declaration, -, other, looked, spelled⟩ :=
        assigns ⟨keys, part⟩ (vars.mem_leaves_iff.mpr ⟨here, plain⟩)
      cases found.symm.trans looked
      exact ((exists_asText?_iff (tree.at? found)).mp ⟨_, spelled⟩).symm

/-- **What a contract and its tokens declare**, all steps taken together. First the variables are
paired with the values of the tokens, then each value is written; either step may refuse. -/
theorem declares_iff {contract tokens : Value} (isContract : IsContract contract)
    (tree : tokens.IsTree IsToken) {declared : List Declaration} :
    (∃ assigned, assign contract tokens [] = .ok assigned ∧
      collect variableOf assigned = .ok declared) ↔
      Fits contract tokens ∧ Fills contract tokens declared := by
  have vars := isContract.tree
  -- no key of a contract comes twice, so no assignment replaces another
  have whole : Entries.extend [] (assignments contract tokens) = assignments contract tokens :=
    Entries.extend_of_fresh (nodupKeys_assignments isContract tokens)
  have collected (reaches : Reaches contract tokens) :
      collect variableOf (assignments contract tokens) = .ok declared ↔
        Fills contract tokens declared := by
    refine collect_eq_ok_iff fun leaf mem => ?_
    obtain ⟨here, plain⟩ := vars.mem_leaves_iff.mp mem
    obtain ⟨value, found, -⟩ := reaches leaf.keys leaf.value here
    exact ⟨(vars.at? here).allowed_of_plain plain, value, found, tree.at? found⟩
  simp only [assign_eq_ok_iff vars tree, whole, fits_iff vars tree]
  constructor
  · rintro ⟨_, ⟨reaches, rfl⟩, done⟩
    have fills := (collected reaches).mp done
    exact ⟨⟨reaches, declared, fills⟩, fills⟩
  · rintro ⟨⟨reaches, -⟩, fills⟩
    exact ⟨_, ⟨reaches, rfl⟩, (collected reaches).mpr fills⟩

/-! ## What is recorded -/

/-- The rule of a theme has one entry, whose declarations are those of the variables. -/
theorem declarations_vars (assigned : Entries) :
    declarations [("vars", .object assigned)] = collect variableOf assigned := by
  have role : KeyRole.of "vars" = .customProperties := by decide
  rw [declarations, entryDeclarations]
  simp only [role, declarations]
  cases collect variableOf assigned with
  | error fault => rfl
  | ok declared => exact congrArg Except.ok (List.append_nil declared)

/-- A theme records one block and nothing else, since variables nest no rules. So such a theme
succeeds just if all its variables can be written. -/
theorem recordAssigned_eq_ok_iff {selector : String} {assigned : Entries} {state final : State} :
    recordAssigned selector assigned state = .ok ((), final) ↔
      ∃ declared, collect variableOf assigned = .ok declared ∧
        final = { state with output := state.output.addBlock ⟨[], selector, declared⟩ } := by
  have role : KeyRole.of "vars" = .customProperties := by decide
  have nested : recordNested selector [] [("vars", .object assigned)] = pure () := by
    rw [recordNested, recordEntry, role]
    rfl
  rw [recordAssigned, recordStyle, nested, recordRule, declarations_vars]
  cases collect variableOf assigned with
  | error fault => exact ⟨nofun, nofun⟩
  | ok declared =>
    constructor
    · exact fun done => ⟨declared, rfl, (congrArg Prod.snd (Except.ok.inj done)).symm⟩
    · rintro ⟨_, same, rfl⟩
      cases same
      rfl

/-- The state after a class was generated. -/
def classed (state : State) (name : String) : State :=
  { state with names := state.names ++ [name], classNames := state.classNames ++ [name] }

/-- The state after a theme: it has one class and one rule more. -/
def themed (state : State) (name : String) (declared : List Declaration) : State :=
  { classed state name with output := state.output.addBlock ⟨[], "." ++ name, declared⟩ }

section Class

variable {naming : Naming} {binding : Option String} {contract tokens : Value} {state : State}
  {result : String × State}

/-- A theme is assigned before its class is generated, and recorded after. -/
theorem themeClass_steps :
    themeClass naming binding contract tokens state = .ok result ↔
      ∃ assigned, assign contract tokens [] = .ok assigned ∧ ∃ final,
        recordAssigned ("." ++ naming.name state.ordinal binding) assigned
          (classed state (naming.name state.ordinal binding)) = .ok ((), final) ∧
        (naming.name state.ordinal binding, final) = result := by
  rw [themeClass]
  cases assign contract tokens [] with
  | error fault => exact ⟨nofun, nofun⟩
  | ok assigned =>
    simp only [Except.ok.injEq, exists_eq_left']
    change (recordAssigned ("." ++ naming.name state.ordinal binding) assigned
      (classed state (naming.name state.ordinal binding)) >>= fun done =>
        Except.ok (naming.name state.ordinal binding, done.2)) = .ok result ↔ _
    rw [bind_eq_ok_iff]
    constructor
    · rintro ⟨⟨_, final⟩, done, same⟩
      exact ⟨final, done, Except.ok.inj same⟩
    · rintro ⟨final, done, rfl⟩
      exact ⟨_, done, rfl⟩

/-- **A theme goes through just if its tokens fit**, and then its state has one class and one block
more, in which each variable is given the text of its token. -/
theorem themeClass_eq_ok_iff (isContract : IsContract contract) (tree : tokens.IsTree IsToken) :
    themeClass naming binding contract tokens state = .ok result ↔
      Fits contract tokens ∧ ∃ declared, Fills contract tokens declared ∧
        result = (naming.name state.ordinal binding,
          themed state (naming.name state.ordinal binding) declared) := by
  simp only [themeClass_steps, recordAssigned_eq_ok_iff]
  constructor
  · rintro ⟨assigned, done, final, ⟨declared, collected, rfl⟩, rfl⟩
    obtain ⟨fits, fills⟩ := (declares_iff isContract tree).mp ⟨assigned, done, collected⟩
    exact ⟨fits, declared, fills, rfl⟩
  · rintro ⟨fits, declared, fills, rfl⟩
    obtain ⟨assigned, done, collected⟩ := (declares_iff isContract tree).mpr ⟨fits, fills⟩
    exact ⟨assigned, done, _, ⟨declared, collected, rfl⟩, rfl⟩

end Class

/-- Tokens of the shape of a contract fit it. -/
theorem fits_of_shape {contract tokens : Value} (same : contract.shape = tokens.shape) :
    Fits contract tokens := fun _ _ => Value.exists_at?_of_shape same

/-- What a leaf is given depends on the token in its place only. -/
theorem Assigns.unique {tokens others : Value} {leaf : Leaf} {one other : Declaration}
    (here : Assigns tokens leaf one) (there : Assigns others leaf other)
    (agree : tokens.at? leaf.keys = others.at? leaf.keys) : one = other := by
  obtain ⟨⟨name, named, property⟩, value, found, text⟩ := here
  obtain ⟨⟨name', named', property'⟩, value', found', text'⟩ := there
  cases variableNamed_inj (named.symm.trans named')
  cases found.symm.trans (agree.trans found')
  exact Prod.ext (property.trans property'.symm) (Option.some.inj (text.symm.trans text'))

/-- Tokens that have the same values at the leaves of a contract give its variables the same
texts. -/
theorem Fills.unique {contract tokens others : Value} {declared declared' : List Declaration}
    (fills : Fills contract tokens declared) (fills' : Fills contract others declared')
    (agree : ∀ leaf ∈ contract.leaves, tokens.at? leaf.keys = others.at? leaf.keys) :
    declared = declared' := by
  unfold Fills at fills fills'
  generalize contract.leaves = leaves at fills fills' agree
  induction fills generalizing declared' with
  | nil => exact (List.forall₂_nil_left_iff.mp fills').symm
  | cons here rest ih =>
    obtain ⟨_, _, here', rest', rfl⟩ := List.forall₂_cons_left_iff.mp fills'
    obtain ⟨first, later⟩ := List.forall_mem_cons.mp agree
    rw [here.unique here' first, ih rest' later]

/-- A theme for a contract that is given. -/
theorem createTheme_eq_ok_iff {naming : Naming} {binding : Option String} {contract : Value}
    {tokens : Entries} {state : State} {result : Value × State} (isContract : IsContract contract)
    (tree : (Value.object tokens).IsTree IsToken) :
    callApi naming binding .createTheme [contract, .object tokens] state = .ok result ↔
      Fits contract (.object tokens) ∧ ∃ declared, Fills contract (.object tokens) declared ∧
        result = (.classes (naming.name state.ordinal binding),
          themed state (naming.name state.ordinal binding) declared) := by
  change (themeClass naming binding contract (.object tokens) state >>= fun done =>
    Except.ok (Value.classes done.1, done.2)) = .ok result ↔ _
  simp only [bind_eq_ok_iff, themeClass_eq_ok_iff isContract tree]
  constructor
  · rintro ⟨_, ⟨fits, declared, fills, rfl⟩, same⟩
    exact ⟨fits, declared, fills, (Except.ok.inj same).symm⟩
  · rintro ⟨fits, declared, fills, rfl⟩
    exact ⟨_, ⟨fits, declared, fills, rfl⟩, rfl⟩

end Theme

/-- **Themes fill their contracts exactly.** The contract that a theme makes for its tokens has
their shape and a new variable at each leaf, and the theme gives each variable the text of its
token. Against any contract a theme goes through just if its tokens fit; it then gives
each variable the text that the tokens have in its place, in the order of the contract, and what
else the tokens have, and in what order, makes no difference. -/
theorem createTheme_fills (naming : Naming) (binding : Option String) (state : State) :
    (∀ tokens : Value, tokens.IsTree IsToken →
      naming.DistinctBelow (state.ordinal + tokens.leaves.length) →
      ∃ made declared, let name := naming.name (state.ordinal + tokens.leaves.length) binding
        Eval.callApi naming binding .createTheme [tokens] state =
            .ok (.array [.classes name, made], Theme.themed
              (state.named naming (Theme.leafBindings binding tokens.leaves)) name declared) ∧
          made.shape = tokens.shape ∧ IsContract made ∧
          (∀ leaf ∈ made.leaves, ∀ earlier < state.ordinal, ∀ part,
            leaf.value ≠ variableNamed (naming.name earlier part)) ∧
          Theme.Fills made tokens declared) ∧
    ∀ (contract : Value) (tokens : Entries), IsContract contract →
      (Value.object tokens).IsTree IsToken →
      let call (given : Entries) :=
        Eval.callApi naming binding .createTheme [contract, .object given] state
      (Succeeds (call tokens) ↔ Theme.Fits contract (.object tokens)) ∧
      (∀ result, call tokens = .ok result → ∃ declared,
        Theme.Fills contract (.object tokens) declared ∧
        result = (.classes (naming.name state.ordinal binding),
          Theme.themed state (naming.name state.ordinal binding) declared)) ∧
      ∀ others : Entries, (Value.object others).IsTree IsToken →
        Theme.Fits contract (.object tokens) → Theme.Fits contract (.object others) →
        (∀ leaf ∈ contract.leaves,
          (Value.object tokens).at? leaf.keys = (Value.object others).at? leaf.keys) →
        call tokens = call others := by
  refine ⟨fun tokens tree distinct => ?_, fun contract tokens isContract tree => ?_⟩
  · -- with tokens alone: the contract is made first, and takes an ordinal for each leaf
    obtain ⟨⟨made, _⟩, done⟩ : Succeeds (Theme.contract naming binding tokens state) :=
      Theme.succeeds_contract binding state tree
    obtain ⟨rfl, shaped, numbered, trees⟩ := Theme.made_of_contract done
    have vars := trees tree
    have isContract := Theme.isContract_of_numbered vars numbered distinct
    have fits := Theme.fits_of_shape shaped
    obtain ⟨-, declared, fills⟩ := (Theme.fits_iff vars tree).mp fits
    have next : (state.named naming (Theme.leafBindings binding tokens.leaves)).ordinal =
        state.ordinal + tokens.leaves.length := by
      rw [State.ordinal_named, Theme.leafBindings, List.length_map]
    refine ⟨made, declared, ?_, shaped, isContract, fun leaf mem earlier before part => ?_, fills⟩
    · rw [← next]
      exact bind_eq_ok_iff.mpr ⟨_, done, bind_eq_ok_iff.mpr
        ⟨_, (Theme.themeClass_eq_ok_iff isContract tree).mpr ⟨fits, declared, fills, rfl⟩, rfl⟩⟩
    · exact Theme.ne_of_numbered distinct (numbered ▸ mem) before part
  · -- with a contract: all follows from what a successful call does
    refine ⟨⟨?_, fun fits => ?_⟩, fun result done => ?_, fun others values fits fits' agree => ?_⟩
    · rintro ⟨result, done⟩
      exact ((Theme.createTheme_eq_ok_iff isContract tree).mp done).1
    · obtain ⟨-, declared, fills⟩ := (Theme.fits_iff isContract.tree tree).mp fits
      exact ⟨_, (Theme.createTheme_eq_ok_iff isContract tree).mpr ⟨fits, declared, fills, rfl⟩⟩
    · exact ((Theme.createTheme_eq_ok_iff isContract tree).mp done).2
    · obtain ⟨-, declared, fills⟩ := (Theme.fits_iff isContract.tree tree).mp fits
      obtain ⟨-, declared', fills'⟩ := (Theme.fits_iff isContract.tree values).mp fits'
      cases fills.unique fills' agree
      exact ((Theme.createTheme_eq_ok_iff isContract tree).mpr ⟨fits, declared, fills, rfl⟩).trans
        ((Theme.createTheme_eq_ok_iff isContract values).mpr ⟨fits', declared, fills', rfl⟩).symm

/-- Tokens of two levels. -/
def dayTokens : Entries :=
  [("color", .object [("brand", .text "navy")]),
    ("space", .number ⟨false, Number.Binary64.ofNat 4⟩)]

/-- A contract of the same shape. -/
def dayContract : Value :=
  .object [("color", .object [("brand", variableNamed "brand")]), ("space", variableNamed "space")]

/-- Tokens for it in another order, and more of them. -/
def nightTokens : Entries :=
  [("shadow", .text "none"), ("space", .text "8px"),
    ("color", .object [("text", .text "white"), ("brand", .text "blue")])]

/-- A theme for its own tokens, and one for a given contract by other tokens that are in another
order. -/
theorem createTheme_fills_day :
    (∃ made declared, let name := Naming.name ⟨"theme", "theme.css.ts"⟩ 2 (some "day")
      Eval.callApi ⟨"theme", "theme.css.ts"⟩ (some "day") .createTheme [.object dayTokens] {} =
          .ok (.array [.classes name, made], Theme.themed
            { names := ["theme_day_color_brand__ad32d919", "theme_day_space__38ebe8a8"] }
            name declared) ∧
        made.shape = (Value.object dayTokens).shape ∧ IsContract made ∧
        Theme.Fills made (.object dayTokens) declared) ∧
    (Eval.callApi ⟨"theme", "theme.css.ts"⟩ (some "night") .createTheme
        [dayContract, .object nightTokens] {}).map
          (fun result => result.2.output.blocks.map Block.declarations) =
      .ok [[("--brand", "blue"), ("--space", "8px")]] ∧
    Theme.Fits dayContract (.object nightTokens) ∧
    ∃ declared, Theme.Fills dayContract (.object nightTokens) declared := by
  have day : (Value.object dayTokens).IsTree IsToken := by
    simp [dayTokens, Value.IsTree, AreTrees, Entries.NodupKeys, IsToken]
  have night : (Value.object nightTokens).IsTree IsToken := by
    simp [nightTokens, Value.IsTree, AreTrees, Entries.NodupKeys, IsToken]
  have isContract : IsContract dayContract := by
    have color : (Value.object [("brand", variableNamed "brand")]).IsTree IsVariable :=
      ⟨by simp [Entries.NodupKeys], ⟨"brand", rfl⟩, trivial⟩
    refine ⟨⟨by simp [Entries.NodupKeys], color, ⟨"space", rfl⟩, trivial⟩, ?_⟩
    simp [dayContract, Value.leaves, leavesOfEntries, variableNamed]
  have distinct : Naming.DistinctBelow ⟨"theme", "theme.css.ts"⟩ 2 := by
    have digits : (List.range 2).map (Naming.digits ⟨"theme", "theme.css.ts"⟩) =
        ["ad32d919".toList, "38ebe8a8".toList] := by decide +kernel
    exact Naming.distinctBelow_of_nodup (digits ▸ by decide)
  have found : (Eval.callApi ⟨"theme", "theme.css.ts"⟩ (some "night") .createTheme
      [dayContract, .object nightTokens] {}).map
        (fun result => result.2.output.blocks.map Block.declarations) =
          .ok [[("--brand", "blue"), ("--space", "8px")]] := by
    decide +kernel
  obtain ⟨made, declared, done, shaped, made', -, fills⟩ :=
    (createTheme_fills ⟨"theme", "theme.css.ts"⟩ (some "day") {}).1 _ day distinct
  obtain ⟨succeeds, recorded, -⟩ :=
    (createTheme_fills ⟨"theme", "theme.css.ts"⟩ (some "night") {}).2 _ _ isContract night
  have names : Naming.numbered ⟨"theme", "theme.css.ts"⟩ 0
      (Theme.leafBindings (some "day") (Value.object dayTokens).leaves) =
        ["theme_day_color_brand__ad32d919", "theme_day_space__38ebe8a8"] := by
    decide +kernel
  have day_eq : State.named {} ⟨"theme", "theme.css.ts"⟩
      (Theme.leafBindings (some "day") (Value.object dayTokens).leaves) =
        { names := ["theme_day_color_brand__ad32d919", "theme_day_space__38ebe8a8"] } :=
    congrArg (fun names : List String => ({ names } : State)) names
  rw [day_eq] at done
  refine ⟨⟨made, declared, done, shaped, made', fills⟩, found, ?_⟩
  cases called : Eval.callApi ⟨"theme", "theme.css.ts"⟩ (some "night") .createTheme
      [dayContract, .object nightTokens] {} with
  | error fault => rw [called] at found; cases found
  | ok result =>
    obtain ⟨declared, fills, -⟩ := recorded result called
    exact ⟨succeeds.mp ⟨result, called⟩, declared, fills⟩

end StyleGraph.Static
