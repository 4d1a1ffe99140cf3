import Mathlib.Data.List.Basic
import StyleGraph.Proofs.Static.Recording
import StyleGraph.Proofs.Static.Tree

/-!
# Style objects laid out flat

A style object is written as nested rules and recorded as a list of blocks. What a leaf of it
declares, and where, can be read off the keys that lead to it, from the outside in
(`Leaf.declared?`). The blocks have just these declarations, each once: the leaves that a rule has
itself come before those of the rules nested in it, and otherwise they keep their order
(`ruleLeaves`, `recordStyle_flattens`).
-/

set_option autoImplicit false

namespace StyleGraph.Static

/-! ## What a leaf declares -/

/-- Where a declaration stands: under a selector, inside conditions, the outermost first. -/
structure Site where
  selector : String
  conditions : List String

namespace Site

/-- Inside the selector of a key, in which the selector so far stands for `&`. -/
def under (site : Site) (names : List String) (key : String) : Site :=
  { site with selector := fillParent (dotNames names key) site.selector }

/-- Inside one more condition. -/
def inside (site : Site) (condition : String) : Site :=
  { site with conditions := site.conditions ++ [condition] }

end Site

/-- Whether a value declares something: what is undefined or unresolved does not. -/
def Value.isGiven : Value → Bool
  | .undefined | .unresolved _ => false
  | _ => true

/-- The text of a value of a property. -/
def spelling? (property : String) : Value → Option String
  | .number value => some (numericValue property value)
  | value => value.asText?

/-- The declaration of a value that stands at the end of keys, read from the outside in, and where
it stands. -/
def declared? (names : List String) (value : Value) :
    Site → List String → Option (Site × Declaration)
  | _, [] => none
  | site, key :: keys =>
    if key.toList.head? = some ':' then
      declared? names value { site with selector := site.selector ++ key } keys
    else if key = "selectors" then
      match keys with
      | [] => none
      | inner :: keys => declared? names value (site.under names inner) keys
    else if key.toList.contains '&' then
      declared? names value (site.under names key) keys
    else if key.toList.head? = some '@' then
      match keys with
      | [] => none
      | query :: keys => declared? names value (site.inside (key ++ " " ++ query)) keys
    else if key = "vars" then
      match keys with
      | [name] => value.asText?.map fun text => (site, customProperty name, text)
      | _ => none
    else
      match keys with
      | [] => (spelling? (hyphenate key) value).map fun text => (site, hyphenate key, text)
      | _ => none

/-- The declaration of a leaf of a style object that stands at a site. -/
def Leaf.declared? (names : List String) (site : Site) (leaf : Leaf) :
    Option (Site × Declaration) :=
  Static.declared? names leaf.value site leaf.keys

/-- The declarations of a block, each with where it stands. -/
def Block.lines (block : Block) : List (Site × Declaration) :=
  block.declarations.map fun declaration => (⟨block.selector, block.conditions⟩, declaration)

/-! ## The order of the leaves -/

/-- Whether a key of a style object nests rules. -/
def nests (key : String) : Bool :=
  key.toList.head? = some ':' || key.toList.head? = some '@' || key = "selectors" ||
    key.toList.contains '&'

/-- Whether what a key nests is a table of rules, by their selectors or conditions, and not a rule
itself. -/
def nestsTable (key : String) : Bool :=
  key = "selectors" || (key.toList.head? = some '@' && !key.toList.contains '&')

/-- The leaves of a style object that are not in nested rules. -/
def ownLeaves (rule : Entries) : List Leaf :=
  leavesOfEntries (rule.filter fun entry => !nests entry.1)

/-- A key that nests rules has no leaf of the rule itself. -/
theorem ownLeaves_of_nests {key : String} (nesting : nests key = true) (value : Value)
    (rest : Entries) : ownLeaves ((key, value) :: rest) = ownLeaves rest := by
  simp [ownLeaves, nesting]

/-- A key that nests nothing has all leaves of its value, with the key in front. -/
theorem ownLeaves_of_plain {key : String} (plain : nests key = false) (value : Value)
    (rest : Entries) : ownLeaves ((key, value) :: rest) =
      value.leaves.map (Leaf.within [key]) ++ ownLeaves rest := by
  simp [ownLeaves, plain, leavesOfEntries]

mutual

/-- The leaves of the rules nested in a style object, those of each rule before those of the rules
nested in it. -/
def nestedLeaves : List (String × Value) → List Leaf
  | [] => []
  | (key, value) :: rest => leavesUnder key value ++ nestedLeaves rest

/-- The leaves of the rules that an entry nests. -/
def leavesUnder (key : String) : Value → List Leaf
  | .object inner =>
    if !nests key then []
    else if nestsTable key then (leavesOfRules inner).map (Leaf.within [key])
    else (ownLeaves inner ++ nestedLeaves inner).map (Leaf.within [key])
  | value => if nests key then value.leaves.map (Leaf.within [key]) else []

/-- The leaves of rules that are given by their keys. -/
def leavesOfRules : List (String × Value) → List Leaf
  | [] => []
  | (key, .object inner) :: rest =>
    (ownLeaves inner ++ nestedLeaves inner).map (Leaf.within [key]) ++ leavesOfRules rest
  | (key, value) :: rest => value.leaves.map (Leaf.within [key]) ++ leavesOfRules rest

end

/-- The leaves of a style object, its own before those of the rules nested in it. -/
def ruleLeaves (rule : Entries) : List Leaf := ownLeaves rule ++ nestedLeaves rule

/-! ## Keys -/

/-- What a role says of its key. -/
def KeyRole.Fits (key : String) : KeyRole → Prop
  | .pseudo => key.toList.head? = some ':'
  | .selectors => key = "selectors"
  | .nested => key.toList.head? ≠ some ':' ∧ key ≠ "selectors" ∧ key.toList.contains '&' = true
  | .conditions kind =>
    key.toList.contains '&' = false ∧ key.toList.head? = some '@' ∧ "@" ++ kind = key
  | .customProperties => key = "vars"
  | .declaration => nests key = false ∧ key ≠ "vars"

/-- What the role of a key says about its characters, read off the tests in their order. The order
matters: a key with a colon in front of it is never asked whether it is a name. -/
theorem KeyRole.fits_of (key : String) : (KeyRole.of key).Fits key := by
  unfold KeyRole.of
  dsimp only
  split
  next pseudo => exact pseudo
  next unled =>
    split
    next named => exact named
    next unnamed =>
      split
      next holds => exact ⟨unled, unnamed, holds⟩
      next lacks =>
        have lacks : key.toList.contains '&' = false := eq_false_of_ne_true lacks
        split
        next kind opens =>
          refine ⟨lacks, by rw [opens]; rfl, ?_⟩
          rw [← String.toList_inj, opens]
          simp
        next plain =>
          have other : key.toList.head? ≠ some '@' := by
            intro led
            obtain ⟨kind, opens⟩ := List.head?_eq_some_iff.mp led
            exact plain kind opens
          split
          next named => exact named
          next unnamed' =>
            refine ⟨?_, unnamed'⟩
            rw [nests, lacks]
            simp [unled, other, unnamed]

section Keys

variable {names : List String} {site : Site} {value : Value} {key : String} {keys : List String}

/-- A pseudo-class is written behind the selector, so its leaves are declared there. -/
theorem declared?_pseudo (role : KeyRole.of key = .pseudo) :
    declared? names value site (key :: keys) =
      declared? names value { site with selector := site.selector ++ key } keys := by
  have fits := KeyRole.fits_of key
  rw [role] at fits
  rw [declared?.eq_def]
  exact if_pos fits

/-- The leaves of a rule that is given by its selector are declared under the resolved selector. -/
theorem declared?_selectors (role : KeyRole.of key = .selectors) {inner : String} :
    declared? names value site (key :: inner :: keys) =
      declared? names value (site.under names inner) keys := by
  have fits := KeyRole.fits_of key
  rw [role] at fits
  cases fits
  rw [declared?.eq_def]
  rfl

/-- A key that is a selector itself is resolved in the same way, without a key around it. -/
theorem declared?_nested (role : KeyRole.of key = .nested) :
    declared? names value site (key :: keys) =
      declared? names value (site.under names key) keys := by
  have fits := KeyRole.fits_of key
  rw [role] at fits
  obtain ⟨unled, unnamed, holds⟩ := fits
  rw [declared?.eq_def]
  exact (if_neg unled).trans ((if_neg unnamed).trans (if_pos holds))

/-- A condition is put inside the conditions around it. The key with its query is what the written
condition is, so the table of a leaf spells it likewise. -/
theorem declared?_conditions {kind query : String} (role : KeyRole.of key = .conditions kind) :
    declared? names value site (key :: query :: keys) =
      declared? names value (site.inside ("@" ++ kind ++ " " ++ query)) keys := by
  have fits := KeyRole.fits_of key
  rw [role] at fits
  obtain ⟨lacks, led, rfl⟩ := fits
  have unled : ("@" ++ kind).toList.head? ≠ some ':' := by rw [led]; decide
  have unnamed : "@" ++ kind ≠ "selectors" := by
    intro same
    rw [same] at led
    cases led
  rw [declared?.eq_def]
  dsimp only
  rw [if_neg unled, if_neg unnamed, lacks, if_neg Bool.false_ne_true, if_pos led]

/-- A custom property is declared with its text, under the name of a property. -/
theorem declared?_customProperties (role : KeyRole.of key = .customProperties) {name : String} :
    declared? names value site [key, name] =
      value.asText?.map fun text => (site, customProperty name, text) := by
  have fits := KeyRole.fits_of key
  rw [role] at fits
  cases fits
  rw [declared?.eq_def]
  rfl

/-- A declaration is spelled with the unit that its property asks for. -/
theorem declared?_declaration (role : KeyRole.of key = .declaration) :
    declared? names value site [key] =
      (spelling? (hyphenate key) value).map fun text => (site, hyphenate key, text) := by
  have fits := KeyRole.fits_of key
  rw [role] at fits
  obtain ⟨plain, unnamed⟩ := fits
  simp only [nests, Bool.or_eq_false_iff, decide_eq_false_iff_not] at plain
  obtain ⟨⟨⟨unled, other⟩, unlisted⟩, lacks⟩ := plain
  rw [declared?.eq_def]
  dsimp only
  rw [if_neg unled, if_neg unlisted, lacks, if_neg Bool.false_ne_true, if_neg other,
    if_neg unnamed]

/-- The roles that nest rules. -/
theorem nests_eq : nests key = match KeyRole.of key with
    | .pseudo | .selectors | .nested | .conditions _ => true
    | .customProperties | .declaration => false := by
  have fits := KeyRole.fits_of key
  cases role : KeyRole.of key <;> rw [role] at fits
  case pseudo => simp [nests, show key.toList.head? = some ':' from fits]
  case selectors => cases fits; rfl
  case nested => simp only [nests, fits.2.2, Bool.or_true]
  case conditions kind => simp [nests, fits.2.1]
  case customProperties => cases fits; decide
  case declaration => exact fits.1

/-- Which keys hold rules under keys of their own depends on their roles only. So the order of
leaves can be compared with the order of rules, which goes by the roles. -/
theorem nestsTable_eq : nestsTable key = match KeyRole.of key with
    | .selectors | .conditions _ => true
    | _ => false := by
  have fits := KeyRole.fits_of key
  cases role : KeyRole.of key <;> rw [role] at fits
  case pseudo =>
    have led : key.toList.head? = some ':' := fits
    have unnamed : key ≠ "selectors" := fun same => by rw [same] at led; cases led
    simp [nestsTable, led, unnamed]
  case selectors => cases fits; rfl
  case nested => simp only [nestsTable, fits.2.1, fits.2.2, decide_false, Bool.not_true,
    Bool.and_false, Bool.or_false]
  case conditions kind => simp only [nestsTable, fits.1, fits.2.1, decide_true, Bool.not_false,
    Bool.and_true, Bool.or_true]
  case customProperties => cases fits; decide
  case declaration =>
    simp only [KeyRole.Fits, nests, Bool.or_eq_false_iff, decide_eq_false_iff_not] at fits
    simp only [nestsTable, fits.1.1.1.2, fits.1.1.2, decide_false, Bool.false_and, Bool.or_false]

end Keys

/-! ## Nothing is lost and nothing doubled -/

mutual

/-- The leaves of the rule and those of the rules nested in it are all leaves of the object, in
another order: a rule is written before the rules nested in it. -/
theorem perm_ruleLeaves : ∀ rule : List (String × Value),
    (ownLeaves rule ++ nestedLeaves rule).Perm (leavesOfEntries rule)
  | [] => by
    rw [nestedLeaves, leavesOfEntries]
    exact .refl _
  | (key, value) :: rest => by
    have others := perm_ruleLeaves rest
    have here := perm_leavesUnder key value
    rw [nestedLeaves, leavesOfEntries]
    cases nesting : nests key with
    | true =>
      rw [ownLeaves_of_nests nesting]
      exact (List.perm_append_comm_assoc _ _ _).trans ((here nesting).append others)
    | false =>
      have none : leavesUnder key value = [] := by
        cases value <;> simp [leavesUnder, nesting]
      rw [ownLeaves_of_plain nesting, none, List.nil_append, List.append_assoc]
      exact others.append_left _

/-- The leaves below a key that nests rules, in the order in which these rules are written. They are
the leaves of the value, though rules below come after the value's own declarations. -/
theorem perm_leavesUnder (key : String) : ∀ value : Value, nests key = true →
    (leavesUnder key value).Perm (value.leaves.map (Leaf.within [key]))
  | .object inner => by
    intro nesting
    rw [leavesUnder, Value.leaves, nesting]
    simp only [Bool.not_true, Bool.false_eq_true, if_false]
    split
    · exact (perm_leavesOfRules inner).map _
    · exact (perm_ruleLeaves inner).map _
  | .text _ | .number _ | .classes _ | .array _ | .undefined | .unresolved _ => by
    intro nesting
    simp only [leavesUnder, nesting, if_true]
    exact .refl _

/-- The same for rules that are given by their keys. -/
theorem perm_leavesOfRules : ∀ rules : List (String × Value),
    (leavesOfRules rules).Perm (leavesOfEntries rules)
  | [] => by
    rw [leavesOfRules, leavesOfEntries]
  | (key, .object inner) :: rest => by
    rw [leavesOfRules, leavesOfEntries, Value.leaves]
    exact ((perm_ruleLeaves inner).map _).append (perm_leavesOfRules rest)
  | (key, .text _) :: rest | (key, .number _) :: rest | (key, .classes _) :: rest
  | (key, .array _) :: rest | (key, .undefined) :: rest | (key, .unresolved _) :: rest => by
    simp only [leavesOfRules, leavesOfEntries]
    exact (List.Perm.refl _).append (perm_leavesOfRules rest)

end

/-! ## Declarations -/

/-- What leaves declare at a site: the declarations are those given, and none is missing but for
leaves that declare nothing. -/
def Declare (names : List String) (site : Site) (leaves : List Leaf)
    (lines : List (Site × Declaration)) : Prop :=
  lines = leaves.filterMap (Leaf.declared? names site) ∧
    ∀ leaf ∈ leaves, (leaf.declared? names site).isSome = leaf.value.isGiven

namespace Declare

variable {names : List String} {site : Site} {leaves others : List Leaf}
  {lines more : List (Site × Declaration)}

/-- Nothing declares nothing. -/
theorem nil : Declare names site [] [] := ⟨rfl, fun _ mem => nomatch mem⟩

/-- Leaves that are declared one after the other. -/
theorem append (first : Declare names site leaves lines) (second : Declare names site others more) :
    Declare names site (leaves ++ others) (lines ++ more) := by
  refine ⟨by rw [List.filterMap_append, ← first.1, ← second.1], fun leaf mem => ?_⟩
  exact (List.mem_append.mp mem).elim (first.2 leaf) (second.2 leaf)

/-- Leaves declare the same inside a value when the keys that lead to it lead to their site. -/
theorem within {inner : Site} {keys : List String} (declare : Declare names inner leaves lines)
    (leads : ∀ leaf ∈ leaves,
      (leaf.within keys).declared? names site = leaf.declared? names inner) :
    Declare names site (leaves.map (Leaf.within keys)) lines := by
  constructor
  · rw [List.filterMap_map, declare.1]
    exact List.filterMap_congr fun leaf mem => (leads leaf mem).symm
  · rintro _ mem
    obtain ⟨leaf, listed, rfl⟩ := List.mem_map.mp mem
    rw [leads leaf listed, declare.2 leaf listed, Leaf.value_within]

/-- A leaf whose value has a text just if it is given. -/
theorem single {leaf : Leaf} {property : String} {text? : Option String}
    (declared : leaf.declared? names site = text?.map fun text => (site, property, text))
    (given : text?.isSome = leaf.value.isGiven) :
    Declare names site [leaf] ((text?.map fun text => (property, text)).toList.map
      fun declaration => (site, declaration)) := by
  constructor
  · rw [List.filterMap_cons, declared]
    cases text? <;> rfl
  · intro other mem
    rw [List.mem_singleton.mp mem, declared, Option.isSome_map, given]

end Declare

/-- What was collected from items is what their leaves declare, if that is so for each item. By
induction on the items, since what is collected is in their order. -/
theorem declare_collect {α : Type} {f : α → Except Fault (Option Declaration)} {names : List String}
    {site : Site} {leaves : α → List Leaf}
    (each : ∀ item found, f item = .ok found →
      Declare names site (leaves item) (found.toList.map fun declaration => (site, declaration)))
    {items : List α} {found : List Declaration} (collected : collect f items = .ok found) :
    Declare names site (items.flatMap leaves)
      (found.map fun declaration => (site, declaration)) := by
  induction items generalizing found with
  | nil =>
    cases collected
    exact .nil
  | cons item items ih =>
    rw [collect] at collected
    obtain ⟨here, first, rest⟩ := bind_eq_ok_iff.mp collected
    obtain ⟨more, others, rest⟩ := bind_eq_ok_iff.mp rest
    cases rest
    rw [List.flatMap_cons, List.map_append]
    exact (each item here first).append (ih others)

variable {names : List String} {site : Site}

/-- The value of a custom property is a leaf. -/
theorem leaf_of_variableOf {name : String} {value : Value} {found : Option Declaration}
    (declared : variableOf (name, value) = .ok found) :
    value.leaves = [⟨[], value⟩] ∧
      found = value.asText?.map (fun text => (customProperty name, text)) ∧
      value.asText?.isSome = value.isGiven := by
  cases value with
  | text | number | classes | unresolved => cases declared; exact ⟨rfl, rfl, rfl⟩
  | object | array | undefined => cases declared

/-- One value of a property is a leaf. -/
theorem leaf_of_declarationOf {key property : String} {value : Value} {found : Option Declaration}
    (declared : declarationOf key property value = .ok found) :
    value.leaves = [⟨[], value⟩] ∧
      found = (spelling? property value).map (fun text => (property, text)) ∧
      (spelling? property value).isSome = value.isGiven := by
  cases value with
  | text | number | classes | undefined | unresolved => cases declared; exact ⟨rfl, rfl, rfl⟩
  | object | array => cases declared

/-- One custom property declares its one leaf, or nothing if its value is passed over. -/
theorem declare_variableOf {key : String} (role : KeyRole.of key = .customProperties)
    {entry : String × Value} {found : Option Declaration}
    (declared : variableOf entry = .ok found) :
    Declare names site (entry.2.leaves.map (Leaf.within [key, entry.1]))
      (found.toList.map fun declaration => (site, declaration)) := by
  obtain ⟨leaves, rfl, given⟩ := leaf_of_variableOf declared
  rw [leaves]
  exact .single (declared?_customProperties role) given

/-- One declaration declares its one leaf, or nothing if its value is passed over. -/
theorem declare_declarationOf {key : String} (role : KeyRole.of key = .declaration)
    {value : Value} {found : Option Declaration}
    (declared : declarationOf key (hyphenate key) value = .ok found) :
    Declare names site (value.leaves.map (Leaf.within [key]))
      (found.toList.map fun declaration => (site, declaration)) := by
  obtain ⟨leaves, rfl, given⟩ := leaf_of_declarationOf declared
  rw [leaves]
  exact .single (declared?_declaration role) given

/-- The declarations of an entry that nests no rules are those of its leaves. A list of values gives
one declaration for each item under the same property, and so does it have one leaf for each. -/
theorem declare_entryDeclarations {entry : String × Value} {found : List Declaration}
    (declared : entryDeclarations entry = .ok found) (plain : nests entry.1 = false) :
    Declare names site (entry.2.leaves.map (Leaf.within [entry.1]))
      (found.map fun declaration => (site, declaration)) := by
  obtain ⟨key, value⟩ := entry
  rw [nests_eq] at plain
  unfold entryDeclarations at declared
  cases role : KeyRole.of key <;> simp only [role] at declared plain
  case pseudo | selectors | nested | conditions => cases plain
  case customProperties =>
    cases value with
    | object entries =>
      have collected : Declare names site
          (entries.flatMap fun entry => entry.2.leaves.map (Leaf.within [key, entry.1]))
          (found.map fun declaration => (site, declaration)) :=
        declare_collect (fun _ _ => declare_variableOf role) declared
      rw [Value.leaves, leavesOfEntries_eq, List.map_flatMap]
      simpa only [List.map_map, Function.comp_def, Leaf.within_within, List.singleton_append]
        using collected
    | _ => cases declared
  case declaration =>
    have collected {values : List Value}
        (declared : collect (declarationOf key (hyphenate key)) values = .ok found) :
        Declare names site (values.flatMap fun value => value.leaves.map (Leaf.within [key]))
          (found.map fun declaration => (site, declaration)) :=
      declare_collect (fun _ _ => declare_declarationOf role) declared
    cases value with
    | array items =>
      rw [Value.leaves, leavesOfItems_eq, List.map_flatMap]
      exact collected declared
    | _ => simpa using collected declared

/-- An entry that nests rules declares nothing itself. -/
theorem entryDeclarations_of_nests {entry : String × Value} (nesting : nests entry.1 = true) :
    entryDeclarations entry = .ok [] := by
  rw [nests_eq] at nesting
  unfold entryDeclarations
  cases role : KeyRole.of entry.1 <;> simp only [role] at nesting ⊢
  case customProperties | declaration => cases nesting

/-- The declarations of a style object are those of its own leaves. By induction on the entries, in
the order in which they are written. -/
theorem declare_declarations {rule : Entries} {found : List Declaration}
    (declared : declarations rule = .ok found) :
    Declare names site (ownLeaves rule) (found.map fun declaration => (site, declaration)) := by
  induction rule generalizing found with
  | nil =>
    cases declared
    exact .nil
  | cons entry rule ih =>
    rw [declarations] at declared
    obtain ⟨here, first, rest⟩ := bind_eq_ok_iff.mp declared
    obtain ⟨more, others, rest⟩ := bind_eq_ok_iff.mp rest
    cases rest
    rw [List.map_append]
    cases nesting : nests entry.1 with
    | true =>
      rw [entryDeclarations_of_nests nesting] at first
      cases first
      rw [ownLeaves_of_nests nesting]
      exact ih others
    | false =>
      rw [ownLeaves_of_plain nesting]
      exact (declare_entryDeclarations first nesting).append (ih others)

/-! ## Rules -/

/-- A step that goes through records blocks with the declarations of leaves, and changes nothing
else. -/
def Flattens (site : Site) (leaves : List Leaf) (step : Eval Unit) : Prop :=
  ∀ state final, step state = .ok ((), final) → ∃ blocks : List Block,
    final = { state with output :=
      { state.output with blocks := state.output.blocks ++ blocks } } ∧
    Declare state.classNames site leaves (blocks.flatMap Block.lines)

namespace Flattens

variable {leaves others : List Leaf} {step next : Eval Unit}

theorem pure : Flattens site [] (Pure.pure ()) := by
  rintro state _ ⟨⟩
  exact ⟨[], by simp, .nil⟩

theorem fail {fault : Fault} : Flattens site leaves (Eval.fail fault) :=
  fun _ _ run => nomatch run

/-- Two steps that write one after the other: the blocks of the second are behind those of the
first, and so are the leaves that they declare. -/
theorem seq (first : Flattens site leaves step) (second : Flattens site others next) :
    Flattens site (leaves ++ others) (do step; next) := by
  intro state final run
  obtain ⟨⟨_, between⟩, done, rest⟩ := bind_eq_ok_iff.mp run
  obtain ⟨blocks, rfl, declare⟩ := first state between done
  obtain ⟨more, rfl, declare'⟩ := second _ final rest
  refine ⟨blocks ++ more, by simp, ?_⟩
  rw [List.flatMap_append]
  exact declare.append declare'

/-- A step at the site that keys lead to. Which site that is may depend on the class names. -/
theorem within {inner : List String → Site} {body : List String → Eval Unit} {keys : List String}
    (flattens : ∀ names, Flattens (inner names) leaves (body names))
    (reads : ∀ state, step state = body state.classNames state)
    (leads : ∀ names (leaf : Leaf),
      (leaf.within keys).declared? names site = leaf.declared? names (inner names)) :
    Flattens site (leaves.map (Leaf.within keys)) step := by
  intro state final run
  rw [reads] at run
  obtain ⟨blocks, rfl, declare⟩ := flattens state.classNames state final run
  exact ⟨blocks, rfl, declare.within fun leaf _ => leads state.classNames leaf⟩

end Flattens

/-- A rule is written as one block, which declares its own leaves in their order. -/
theorem flattens_recordRule (site : Site) (rule : Entries) :
    Flattens site (ownLeaves rule) (Eval.recordRule site.selector site.conditions rule) := by
  intro state final run
  unfold Eval.recordRule at run
  cases declared : declarations rule with
  | error fault => rw [declared] at run; cases run
  | ok found =>
    rw [declared] at run
    cases run
    refine ⟨[⟨site.conditions, site.selector, found⟩], rfl, ?_⟩
    rw [List.flatMap_singleton]
    exact declare_declarations declared

/-- A style object, where the rules nested in it are known. -/
theorem Flattens.style {rule : Entries}
    (nested : ∀ site : Site, Flattens site (nestedLeaves rule)
      (Eval.recordNested site.selector site.conditions rule)) (site : Site) :
    Flattens site (ruleLeaves rule) (Eval.recordStyle site.selector site.conditions rule) :=
  (flattens_recordRule site rule).seq (nested site)

/-- A style object under a key that is a selector. -/
def Eval.recordUnder (site : Site) (key : String) (rule : Entries) : Eval Unit := do
  Eval.recordStyle (fillParent (← Eval.resolveSelector key) site.selector) site.conditions rule

/-- A rule that is nested writes its block and then the rules nested in it, all at the place to
which the keys lead. -/
theorem Flattens.under {rule : Entries}
    (nested : ∀ site : Site, Flattens site (nestedLeaves rule)
      (Eval.recordNested site.selector site.conditions rule)) {site : Site} {key : String}
    {keys : List String}
    (leads : ∀ names (leaf : Leaf),
      (leaf.within keys).declared? names site = leaf.declared? names (site.under names key)) :
    Flattens site ((ruleLeaves rule).map (Leaf.within keys)) (Eval.recordUnder site key rule) :=
  .within (fun names => .style nested (site.under names key)) (fun _ => rfl) leads

/-- The first of the rules that are given by their selectors, as a step of its own. -/
theorem recordSelectors_cons (site : Site) (key : String) (rule : Entries)
    (rest : List (String × Value)) :
    Eval.recordSelectors site.selector site.conditions ((key, .object rule) :: rest) = (do
      Eval.recordUnder site key rule
      Eval.recordSelectors site.selector site.conditions rest) := by
  simp only [Eval.recordSelectors, Eval.recordUnder, Eval.recordStyle, bind_assoc]

/-- The first of the rules that are given by their conditions, as a step of its own. -/
theorem recordConditions_cons (site : Site) (kind query : String) (rule : Entries)
    (rest : List (String × Value)) :
    Eval.recordConditions site.selector site.conditions kind ((query, .object rule) :: rest) = (do
      Eval.recordStyle site.selector (site.inside ("@" ++ kind ++ " " ++ query)).conditions rule
      Eval.recordConditions site.selector site.conditions kind rest) := by
  simp only [Eval.recordConditions, Eval.recordStyle, bind_assoc, Site.inside]

mutual

/-- **Nested rules are flattened** in their order, by the recursion of the recording. -/
theorem flattens_recordNested (site : Site) : ∀ rule : List (String × Value),
    Flattens site (nestedLeaves rule) (Eval.recordNested site.selector site.conditions rule)
  | [] => by
    rw [Eval.recordNested, nestedLeaves]
    exact .pure
  | (key, value) :: rest => by
    rw [Eval.recordNested, nestedLeaves]
    exact (flattens_recordEntry site key value).seq (flattens_recordNested site rest)

/-- One entry of a style object, by the role of its key. The keys that lead to a leaf say where it
is declared. -/
theorem flattens_recordEntry (site : Site) (key : String) : ∀ value : Value,
    Flattens site (leavesUnder key value)
      (Eval.recordEntry site.selector site.conditions key value)
  | .object inner => by
    have nested := fun site => flattens_recordNested site inner
    rw [Eval.recordEntry, leavesUnder, nests_eq, nestsTable_eq]
    cases role : KeyRole.of key with
    | pseudo =>
      exact .within (fun _ => .style nested { site with selector := site.selector ++ key })
        (fun _ => rfl) fun _ _ => declared?_pseudo role
    | selectors => exact flattens_recordSelectors site role inner
    | nested => exact .under nested fun _ _ => declared?_nested role
    | conditions kind => exact flattens_recordConditions site role inner
    | customProperties => exact .pure
    | declaration => exact .pure
  | .text _ | .number _ | .classes _ | .array _ | .undefined | .unresolved _ => by
    simp only [Eval.recordEntry, leavesUnder, Eval.flatEntry, nests_eq]
    cases role : KeyRole.of key with
    | customProperties => exact .pure
    | declaration => exact .pure
    | _ => exact .fail

/-- Rules that are given by their selectors, one after the other. A rule that is no object is a
fault, so nothing is promised then. -/
theorem flattens_recordSelectors (site : Site) {key : String} (role : KeyRole.of key = .selectors) :
    ∀ rules : List (String × Value),
      Flattens site ((leavesOfRules rules).map (Leaf.within [key]))
        (Eval.recordSelectors site.selector site.conditions rules)
  | [] => by
    rw [Eval.recordSelectors, leavesOfRules]
    exact .pure
  | (inner, .object rule) :: rest => by
    have nested := fun site => flattens_recordNested site rule
    rw [recordSelectors_cons, leavesOfRules, List.map_append, List.map_map]
    refine .seq ?_ (flattens_recordSelectors site role rest)
    simp only [Function.comp_def, Leaf.within_within, List.singleton_append]
    exact .under nested fun _ _ => declared?_selectors role
  | (_, .text _) :: _ | (_, .number _) :: _ | (_, .classes _) :: _ | (_, .array _) :: _
  | (_, .undefined) :: _ | (_, .unresolved _) :: _ => by
    simp only [Eval.recordSelectors]
    exact .fail

/-- Rules that are given by their conditions, one after the other. Each rule is at the same selector
as before, with one more condition around it. -/
theorem flattens_recordConditions (site : Site) {key kind : String}
    (role : KeyRole.of key = .conditions kind) : ∀ rules : List (String × Value),
      Flattens site ((leavesOfRules rules).map (Leaf.within [key]))
        (Eval.recordConditions site.selector site.conditions kind rules)
  | [] => by
    rw [Eval.recordConditions, leavesOfRules]
    exact .pure
  | (query, .object rule) :: rest => by
    have nested := fun site => flattens_recordNested site rule
    rw [recordConditions_cons, leavesOfRules, List.map_append, List.map_map]
    refine .seq ?_ (flattens_recordConditions site role rest)
    simp only [Function.comp_def, Leaf.within_within, List.singleton_append]
    exact .within (fun _ => .style nested (site.inside ("@" ++ kind ++ " " ++ query)))
      (fun _ => rfl) fun _ _ => declared?_conditions role
  | (_, .text _) :: _ | (_, .number _) :: _ | (_, .classes _) :: _ | (_, .array _) :: _
  | (_, .undefined) :: _ | (_, .unresolved _) :: _ => by
    simp only [Eval.recordConditions]
    exact .fail

end

/-- **Flattening a style object loses nothing and doubles nothing.** When a style object is
recorded, blocks are added to what is recorded and nothing else changes. Their declarations are
those of the leaves of the style object, one for each that is given, in their order: the leaves of a
rule before those of the rules nested in it. -/
theorem recordStyle_flattens {selector : String} {conditions : List String} {rule : Entries}
    {state final : State}
    (records : Eval.recordStyle selector conditions rule state = .ok ((), final)) :
    ∃ blocks : List Block,
      final = { state with output :=
        { state.output with blocks := state.output.blocks ++ blocks } } ∧
      blocks.flatMap Block.lines =
        (ruleLeaves rule).filterMap (Leaf.declared? state.classNames ⟨selector, conditions⟩) ∧
      (ruleLeaves rule).Perm (leavesOfEntries rule) ∧
      ∀ leaf ∈ leavesOfEntries rule,
        (leaf.declared? state.classNames ⟨selector, conditions⟩).isSome = leaf.value.isGiven := by
  have perm := perm_ruleLeaves rule
  obtain ⟨blocks, recorded, same, given⟩ := Flattens.style
    (fun site => flattens_recordNested site rule) ⟨selector, conditions⟩ state final records
  exact ⟨blocks, recorded, same, perm, fun leaf mem => given leaf (perm.mem_iff.mpr mem)⟩

/-- A style object with rules nested in it in every way, one of them two rules deep. -/
def linkRule : Entries :=
  [("color", .array [.text "red", .text "navy"]), (":hover", .object [("color", .text "blue")]),
    ("@media", .object [("print", .object
      [("fontSize", .number ⟨false, Number.Binary64.ofNat 18⟩),
        ("selectors", .object [("root &", .object
          [("vars", .object [("gap", .text "4px")]), ("margin", .unresolved "m")])])])]),
    ("& b", .object [("top", .undefined)]), ("zIndex", .text "2")]

/-- A module with one class. -/
def rootState : State := { classNames := ["root"] }

/-- A style object that nests a pseudo-class, a condition, and a rule inside a condition. Each rule
comes out under the selector and the conditions that lead to it, and a later declaration of a
property stays behind an earlier one. -/
theorem recordStyle_flattens_link :
    (Eval.recordStyle ".link" [] linkRule rootState).map (fun result => result.2.output.render) =
        .ok (".link \x7b\n  color: red;\n  color: navy;\n  z-index: 2;\n\x7d\n" ++
          ".link:hover \x7b\n  color: blue;\n\x7d\n" ++
          "@media print \x7b\n  .link \x7b\n    font-size: 18px;\n  \x7d\n\x7d\n" ++
          "@media print \x7b\n  .root .link \x7b\n    --gap: 4px;\n  \x7d\n\x7d\n") ∧
      ∃ final, Eval.recordStyle ".link" [] linkRule rootState = .ok ((), final) ∧
        ∃ blocks : List Block,
          final = { rootState with output :=
            { rootState.output with blocks := rootState.output.blocks ++ blocks } } ∧
          blocks.flatMap Block.lines =
            (ruleLeaves linkRule).filterMap (Leaf.declared? ["root"] ⟨".link", []⟩) ∧
          (ruleLeaves linkRule).Perm (leavesOfEntries linkRule) ∧
          ∀ leaf ∈ leavesOfEntries linkRule,
            (leaf.declared? ["root"] ⟨".link", []⟩).isSome = leaf.value.isGiven := by
  have rendered : (Eval.recordStyle ".link" [] linkRule rootState).map
      (fun result => result.2.output.render) =
        .ok (".link \x7b\n  color: red;\n  color: navy;\n  z-index: 2;\n\x7d\n" ++
          ".link:hover \x7b\n  color: blue;\n\x7d\n" ++
          "@media print \x7b\n  .link \x7b\n    font-size: 18px;\n  \x7d\n\x7d\n" ++
          "@media print \x7b\n  .root .link \x7b\n    --gap: 4px;\n  \x7d\n\x7d\n") := by
    decide +kernel
  cases records : Eval.recordStyle ".link" [] linkRule rootState with
  | error fault => rw [records] at rendered; cases rendered
  | ok result => exact ⟨records ▸ rendered, result.2, rfl, recordStyle_flattens records⟩

end StyleGraph.Static
