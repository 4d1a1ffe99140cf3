import StyleGraph.Css.Selector.Basic

/-!
# Written order and matching order

A selector holds its compounds from right to left. `Selector.turn` leads from that order to the
written one and back: turned twice, a list is what it was (`Selector.turn_turn`). So a selector
that is rebuilt from its written components is the selector it was, and a change of single
components that leaves combinators where they are can be made in either order
(`Selector.turn_map`).

What is turned is a chain of compounds with combinators between them (`Chain`), and both of its
orders can be said without turning (`Selector.written_stored`).
-/

set_option autoImplicit false

namespace StyleGraph.Css.Selector

variable {α : Type} {breaks : α → Bool}

/-! ## Runs between breaks -/

/-- Every list is a run, or a run, a break and a list. It is the induction along which compounds are
turned around, since a turn goes from one combinator to the next. -/
theorem runs_induction (breaks : α → Bool) {motive : List α → Prop}
    (last : ∀ run : List α, (∀ item ∈ run, breaks item = false) → motive run)
    (more : ∀ (run : List α) (joint : α) (rest : List α), (∀ item ∈ run, breaks item = false) →
      breaks joint = true → motive rest → motive (run ++ joint :: rest))
    (items : List α) : motive items := by
  -- The run that has been passed so far stands in front of what is left.
  have passed : ∀ items run : List α, (∀ item ∈ run, breaks item = false) →
      motive (run ++ items) := by
    intro items
    induction items with
    | nil =>
      intro run unbroken
      rw [List.append_nil]
      exact last run unbroken
    | cons item items ih =>
      intro run unbroken
      cases broken : breaks item with
      | true => exact more run item items unbroken broken (ih [] (by simp))
      | false =>
        rw [List.append_cons]
        refine ih (run ++ [item]) fun other mem => ?_
        rcases List.mem_append.mp mem with before | here
        · exact unbroken other before
        · rwa [List.mem_singleton.mp here]
  exact passed items [] (by simp)

/-- A run without a break is split off as a whole. -/
theorem split_of_unbroken {run : List α} (unbroken : ∀ item ∈ run, breaks item = false) :
    split breaks run = (run, []) := by
  induction run with
  | nil => rfl
  | cons item run ih =>
    have tailSplit := ih fun other mem => unbroken other (List.mem_cons_of_mem _ mem)
    simp [split, tailSplit, unbroken item List.mem_cons_self]

/-- A list is split at a break as the lists on both sides of it are. -/
theorem split_append_break (items : List α) {joint : α} (broken : breaks joint = true)
    (rest : List α) :
    split breaks (items ++ joint :: rest) =
      ((split breaks items).1,
        (split breaks items).2 ++ (joint, (split breaks rest).1) :: (split breaks rest).2) := by
  induction items with
  | nil => simp [split, broken]
  | cons item items ih =>
    simp only [List.cons_append, split, ih]
    split <;> simp

/-- A list is split at its first break. -/
theorem split_append_cons {run : List α} (unbroken : ∀ item ∈ run, breaks item = false)
    {joint : α} (broken : breaks joint = true) (rest : List α) :
    split breaks (run ++ joint :: rest) =
      (run, (joint, (split breaks rest).1) :: (split breaks rest).2) := by
  rw [split_append_break run broken, split_of_unbroken unbroken, List.nil_append]

/-- The last run of a list is split off behind the others. -/
theorem split_append_run (items : List α) {joint : α} (broken : breaks joint = true)
    {run : List α} (unbroken : ∀ item ∈ run, breaks item = false) :
    split breaks (items ++ joint :: run) =
      ((split breaks items).1, (split breaks items).2 ++ [(joint, run)]) := by
  rw [split_append_break items broken, split_of_unbroken unbroken]

/-- All runs of a list, in order. -/
def runs (breaks : α → Bool) (items : List α) : List (List α) :=
  (split breaks items).1 :: (split breaks items).2.map Prod.snd

/-- A list without breaks is one run. -/
theorem runs_of_unbroken {run : List α} (unbroken : ∀ item ∈ run, breaks item = false) :
    runs breaks run = [run] := by
  rw [runs, split_of_unbroken unbroken, List.map_nil]

/-- The runs of a list are those before a break and those behind it. -/
theorem runs_append_break (items : List α) {joint : α} (broken : breaks joint = true)
    (rest : List α) :
    runs breaks (items ++ joint :: rest) = runs breaks items ++ runs breaks rest := by
  simp only [runs, split_append_break items broken, List.map_append, List.map_cons,
    List.cons_append]

/-- There is one run more than there are breaks. -/
theorem length_runs (items : List α) :
    (runs breaks items).length = (items.filter breaks).length + 1 := by
  induction items with
  | nil => rfl
  | cons item items ih =>
    simp only [runs, List.length_cons, List.length_map, Nat.add_right_cancel_iff] at ih ⊢
    cases broken : breaks item with
    | true => simp [split, broken, ih]
    | false => simp [split, broken, ih]

/-- A change of single items that keeps breaks changes the runs item by item. -/
theorem split_map {β : Type} {stops : β → Bool} {change : α → β}
    (keeps : ∀ item, stops (change item) = breaks item) (items : List α) :
    split stops (items.map change) =
      ((split breaks items).1.map change,
        (split breaks items).2.map fun other => (change other.1, other.2.map change)) := by
  induction items with
  | nil => rfl
  | cons item items ih =>
    simp only [List.map_cons, split, ih, keeps]
    split <;> simp

/-! ## Turning -/

/-- What stands behind the first run stays behind it. -/
private theorem foldl_turn_append (others : List (α × List α)) (first after : List α) :
    others.foldl (fun turned other => other.2 ++ other.1 :: turned) (first ++ after) =
      others.foldl (fun turned other => other.2 ++ other.1 :: turned) first ++ after := by
  induction others generalizing first with
  | nil => rfl
  | cons other others ih =>
    simp only [List.foldl_cons, ← List.cons_append, ← List.append_assoc, ih]

/-- A list without breaks is turned into itself, since only whole runs change places. -/
theorem turn_of_unbroken {run : List α} (unbroken : ∀ item ∈ run, breaks item = false) :
    turn breaks run = run := by
  simp [turn, split_of_unbroken unbroken]

/-- The first run becomes the last one. -/
theorem turn_append_cons {run : List α} (unbroken : ∀ item ∈ run, breaks item = false)
    {joint : α} (broken : breaks joint = true) (rest : List α) :
    turn breaks (run ++ joint :: rest) = turn breaks rest ++ joint :: run := by
  simp only [turn, split_append_cons unbroken broken, List.foldl_cons, foldl_turn_append]

/-- The last run becomes the first one. -/
theorem turn_append_run (items : List α) {joint : α} (broken : breaks joint = true)
    {run : List α} (unbroken : ∀ item ∈ run, breaks item = false) :
    turn breaks (items ++ joint :: run) = run ++ joint :: turn breaks items := by
  simp only [turn, split_append_run items broken unbroken, List.foldl_append, List.foldl_cons,
    List.foldl_nil]

/-- **Turning twice changes nothing.** -/
theorem turn_turn (items : List α) : turn breaks (turn breaks items) = items := by
  induction items using runs_induction breaks with
  | last run unbroken => rw [turn_of_unbroken unbroken, turn_of_unbroken unbroken]
  | more run joint rest unbroken broken ih =>
    rw [turn_append_cons unbroken broken, turn_append_run _ broken unbroken, ih]

/-- **A run inside a compound stays as it is**, between parts that do not depend on it. So a change
inside one compound can be followed to its place in the written order, whatever the compound holds.
-/
theorem exists_turn_eq (before after : List α) :
    ∃ lead tail, ∀ run : List α, (∀ item ∈ run, breaks item = false) →
      turn breaks (before ++ run ++ after) = lead ++ run ++ tail := by
  induction before using runs_induction breaks with
  | last start unbroken =>
    induction after using runs_induction breaks with
    | last stop unbrokenStop =>
      refine ⟨start, stop, fun run unbrokenRun => turn_of_unbroken ?_⟩
      exact List.forall_mem_append.mpr
        ⟨List.forall_mem_append.mpr ⟨unbroken, unbrokenRun⟩, unbrokenStop⟩
    | more stop joint rest unbrokenStop broken _ =>
      refine ⟨turn breaks rest ++ joint :: start, stop, fun run unbrokenRun => ?_⟩
      have whole : ∀ item ∈ start ++ run ++ stop, breaks item = false :=
        List.forall_mem_append.mpr
          ⟨List.forall_mem_append.mpr ⟨unbroken, unbrokenRun⟩, unbrokenStop⟩
      rw [← List.append_assoc, turn_append_cons whole broken]
      simp only [List.append_assoc, List.cons_append]
  | more start joint rest unbroken broken ih =>
    obtain ⟨lead, tail, turned⟩ := ih
    refine ⟨lead, tail ++ joint :: start, fun run unbrokenRun => ?_⟩
    have regrouped : start ++ joint :: rest ++ run ++ after =
        start ++ joint :: (rest ++ run ++ after) := by
      simp only [List.append_assoc, List.cons_append]
    rw [regrouped, turn_append_cons unbroken broken, turned run unbrokenRun]
    simp only [List.append_assoc]

/-- A change of single items that keeps breaks can be made before or after turning. Turning looks at
the breaks only, so runs are the same for both lists. -/
theorem turn_map {β : Type} {stops : β → Bool} {change : α → β}
    (keeps : ∀ item, stops (change item) = breaks item) (items : List α) :
    turn stops (items.map change) = (turn breaks items).map change := by
  have unchanged : ∀ run : List α, (∀ item ∈ run, breaks item = false) →
      ∀ item ∈ run.map change, stops item = false := by
    intro run unbroken item mem
    obtain ⟨before, listed, rfl⟩ := List.mem_map.mp mem
    rw [keeps, unbroken before listed]
  induction items using runs_induction breaks with
  | last run unbroken =>
    rw [turn_of_unbroken unbroken, turn_of_unbroken (unchanged run unbroken)]
  | more run joint rest unbroken broken ih =>
    have stillBroken : stops (change joint) = true := by rw [keeps, broken]
    rw [List.map_append, List.map_cons, turn_append_cons (unchanged run unbroken) stillBroken, ih,
      turn_append_cons unbroken broken, List.map_append, List.map_cons]

/-- Turning puts the items in another order. -/
theorem turn_perm (items : List α) : (turn breaks items).Perm items := by
  induction items using runs_induction breaks with
  | last run unbroken => rw [turn_of_unbroken unbroken]
  | more run joint rest unbroken broken ih =>
    rw [turn_append_cons unbroken broken]
    have swapped := (ih.append_right (joint :: run)).trans List.perm_append_comm
    exact swapped.trans List.perm_middle.symm

/-- Turning keeps all items, and adds none. -/
theorem mem_turn {item : α} {items : List α} : item ∈ turn breaks items ↔ item ∈ items :=
  (turn_perm items).mem_iff

/-! ## Compounds and combinators -/

/-- The compounds of a selector, in written order. -/
def compounds (selector : Selector) : List (List Component) :=
  let (first, others) := split Component.isCombinator selector.written
  first :: others.map Prod.snd

/-- The combinators of a selector, in written order. -/
def combinators (selector : Selector) : List Combinator :=
  selector.written.filterMap Component.combinator?

section

variable {selector changed : Selector} {change : Component → Component}
  (keeps : ∀ component, (change component).combinator? = component.combinator?)
  (same : changed.components = selector.components.map change)

include keeps

/-- A change that keeps combinators makes no other component one. -/
theorem isCombinator_of_keeps (component : Component) :
    (change component).isCombinator = component.isCombinator := by
  rw [Component.isCombinator, keeps, Component.isCombinator]

include same

/-- A selector whose components change in place, and no combinator, is written with the same
changes. -/
theorem written_of_components : changed.written = selector.written.map change := by
  rw [written, written, same]
  exact turn_map (isCombinator_of_keeps keeps) _

/-- Such a change keeps the combinators of a selector. -/
theorem combinators_of_components : changed.combinators = selector.combinators := by
  rw [combinators, combinators, written_of_components keeps same, List.filterMap_map]
  exact congrArg (List.filterMap · selector.written) (funext keeps)

/-- It changes the compounds of a selector one by one. -/
theorem compounds_of_components :
    changed.compounds = selector.compounds.map (List.map change) := by
  have split := split_map (isCombinator_of_keeps keeps) selector.written
  simp only [compounds, written_of_components keeps same, split, List.map_map, List.map_cons,
    Function.comp_def]

/-- Rebuilding the changed selector from the written order gives the components that it has. -/
theorem components_ofWritten_map :
    (ofWritten (selector.written.map change)).components = changed.components := by
  rw [← written_of_components keeps same, ofWritten, components, written, turn_turn]

end

end StyleGraph.Css.Selector

namespace StyleGraph.Css

/-! ## Chains

A selector is written as compounds with a combinator between neighbours. It is stored from right to
left: the last compound comes first, and only inside a compound the simple selectors stay in the
order in which they are written. Every list of components is the written form of one chain and the
stored form of one chain, so no component is lost, doubled or moved to another compound on either
way.
-/

/-- No combinator stands in a compound. -/
def IsCompound (components : List Component) : Prop :=
  ∀ component ∈ components, component.isCombinator = false

/-- Compounds in the order in which they are written, with a combinator between neighbours. A
compound may be empty. -/
@[ext]
structure Chain where
  compounds : List (List Component)
  joints : List Combinator
  simple : ∀ compound ∈ compounds, IsCompound compound
  length_compounds : compounds.length = joints.length + 1

namespace Chain

/-- Compounds with combinators between neighbours. -/
def interleave : List (List Component) → List Combinator → List Component
  | compounds, [] => compounds.flatten
  | [], _ :: _ => []
  | compound :: compounds, joint :: joints =>
    compound ++ .combinator joint :: interleave compounds joints

/-- The components of a chain in the order in which they are written. -/
def written (chain : Chain) : List Component := interleave chain.compounds chain.joints

/-- The components of a chain in the order in which they are stored: compounds and combinators from
right to left, each compound as it is written. -/
def stored (chain : Chain) : List Component :=
  interleave chain.compounds.reverse chain.joints.reverse

/-! ## Compounds with combinators between them -/

/-- A chain of one compound. -/
def single (compound : List Component) (simple : IsCompound compound) : Chain where
  compounds := [compound]
  joints := []
  simple := List.forall_mem_singleton.mpr simple
  length_compounds := rfl

/-- A compound and a combinator before a chain. -/
def link (compound : List Component) (simple : IsCompound compound) (joint : Combinator)
    (chain : Chain) : Chain where
  compounds := compound :: chain.compounds
  joints := joint :: chain.joints
  simple := List.forall_mem_cons.mpr ⟨simple, chain.simple⟩
  length_compounds := congrArg Nat.succ chain.length_compounds

/-- Every chain is a compound, or a compound and a combinator before a chain. -/
theorem induction {motive : Chain → Prop}
    (one : ∀ compound simple, motive (single compound simple))
    (more : ∀ compound simple joint chain, motive chain → motive (link compound simple joint chain))
    (chain : Chain) : motive chain := by
  obtain ⟨compounds, joints, simple, length⟩ := chain
  induction joints generalizing compounds with
  | nil =>
    obtain ⟨compound, rfl⟩ := List.length_eq_one_iff.mp length
    exact one compound (List.forall_mem_singleton.mp simple)
  | cons joint joints ih =>
    cases compounds with
    | nil => cases length
    | cons compound compounds =>
      obtain ⟨here, others⟩ := List.forall_mem_cons.mp simple
      exact more compound here joint ⟨compounds, joints, others, Nat.succ.inj length⟩ (ih _ _ _)

/-- One compound is written as it is. -/
theorem written_single (compound : List Component) (simple : IsCompound compound) :
    (single compound simple).written = compound := List.flatten_singleton

/-- Compounds are written with the combinators between them. -/
theorem written_link (compound : List Component) (simple : IsCompound compound)
    (joint : Combinator) (chain : Chain) :
    (link compound simple joint chain).written = compound ++ .combinator joint :: chain.written :=
  rfl

/-- One more combinator with compounds behind it. The first chain has one compound more than joints,
so the new joint stands right behind its last one. -/
theorem interleave_append {compounds : List (List Component)} {joints : List Combinator}
    (length : compounds.length = joints.length + 1) (after : List (List Component))
    (joint : Combinator) (more : List Combinator) :
    interleave (compounds ++ after) (joints ++ joint :: more) =
      interleave compounds joints ++ .combinator joint :: interleave after more := by
  induction joints generalizing compounds with
  | nil =>
    obtain ⟨compound, rfl⟩ := List.length_eq_one_iff.mp length
    simp only [List.nil_append, List.singleton_append, interleave, List.flatten_singleton]
  | cons first joints ih =>
    cases compounds with
    | nil => cases length
    | cons compound compounds =>
      simp only [List.cons_append, interleave, ih (Nat.succ.inj length), List.append_assoc]

/-- One compound is stored as it is written. -/
theorem stored_single (compound : List Component) (simple : IsCompound compound) :
    (single compound simple).stored = compound := List.flatten_singleton

/-- What is written first is stored last. -/
theorem stored_link (compound : List Component) (simple : IsCompound compound)
    (joint : Combinator) (chain : Chain) :
    (link compound simple joint chain).stored = chain.stored ++ .combinator joint :: compound := by
  have reversed : chain.compounds.reverse.length = chain.joints.reverse.length + 1 := by
    rw [List.length_reverse, List.length_reverse, chain.length_compounds]
  simp only [stored, link, List.reverse_cons]
  rw [interleave_append reversed, interleave, List.flatten_singleton]

/-- **Turning what is written gives what is stored.** -/
theorem turn_written (chain : Chain) :
    Selector.turn Component.isCombinator chain.written = chain.stored := by
  induction chain using Chain.induction with
  | one compound simple =>
    rw [written_single, Selector.turn_of_unbroken simple, stored_single]
  | more compound simple joint chain ih =>
    rw [written_link, Selector.turn_append_cons simple rfl, ih, stored_link]

/-- The compounds are the runs between combinators. -/
theorem runs_written (chain : Chain) :
    Selector.runs Component.isCombinator chain.written = chain.compounds := by
  induction chain using Chain.induction with
  | one compound simple =>
    rw [written_single, Selector.runs_of_unbroken simple, single]
  | more compound simple joint chain ih =>
    rw [written_link, Selector.runs_append_break _ rfl, Selector.runs_of_unbroken simple, ih, link,
      List.singleton_append]

/-- A compound has no combinators. -/
theorem filterMap_combinator? {compound : List Component} (simple : IsCompound compound) :
    compound.filterMap Component.combinator? = [] := by
  refine List.filterMap_eq_nil_iff.mpr fun component mem => ?_
  have plain := simple component mem
  rwa [Component.isCombinator, Option.isSome_eq_false_iff, Option.isNone_iff_eq_none] at plain

/-- The combinators of a chain are found in their order. -/
theorem filterMap_append_combinator {compound : List Component} (simple : IsCompound compound)
    (joint : Combinator) (rest : List Component) :
    (compound ++ .combinator joint :: rest).filterMap Component.combinator? =
      joint :: rest.filterMap Component.combinator? := by
  rw [List.filterMap_append, filterMap_combinator? simple]
  rfl

/-- The combinators stand in their order. -/
theorem filterMap_written (chain : Chain) :
    chain.written.filterMap Component.combinator? = chain.joints := by
  induction chain using Chain.induction with
  | one compound simple => rw [written_single, filterMap_combinator? simple, single]
  | more compound simple joint chain ih =>
    rw [written_link, filterMap_append_combinator simple, ih, link]

/-! ## Chains of lists -/

/-- The runs between combinators are compounds. -/
theorem isCompound_of_mem_runs {components compound : List Component}
    (mem : compound ∈ Selector.runs Component.isCombinator components) : IsCompound compound := by
  induction components using Selector.runs_induction Component.isCombinator with
  | last run unbroken =>
    rw [Selector.runs_of_unbroken unbroken, List.mem_singleton] at mem
    rwa [mem]
  | more run joint rest unbroken broken ih =>
    rw [Selector.runs_append_break _ broken, Selector.runs_of_unbroken unbroken] at mem
    rcases List.mem_append.mp mem with here | behind
    · rwa [List.mem_singleton.mp here]
    · exact ih behind

/-- The chain that is written as a list of components. -/
def ofWritten (components : List Component) : Chain where
  compounds := Selector.runs Component.isCombinator components
  joints := components.filterMap Component.combinator?
  simple _ := isCompound_of_mem_runs
  length_compounds := by
    rw [Selector.length_runs, List.length_filterMap_eq_countP, List.countP_eq_length_filter]
    rfl

/-- A chain can be read off what is written. -/
theorem ofWritten_written (chain : Chain) : ofWritten chain.written = chain :=
  Chain.ext (runs_written chain) (filterMap_written chain)

/-- Every list of components is written as a chain. So nothing is lost when components are read as a
chain, whatever their combinators are. -/
theorem written_ofWritten (components : List Component) :
    (ofWritten components).written = components := by
  induction components using Selector.runs_induction Component.isCombinator with
  | last run unbroken =>
    have simple : IsCompound run := unbroken
    have whole : ofWritten run = single run simple :=
      Chain.ext (Selector.runs_of_unbroken simple) (filterMap_combinator? simple)
    rw [whole, written_single]
  | more run joint rest unbroken broken ih =>
    obtain ⟨combinator, found⟩ := Option.isSome_iff_exists.mp broken
    cases joint <;> cases found
    have simple : IsCompound run := unbroken
    have whole : ofWritten (run ++ .combinator combinator :: rest) =
        link run simple combinator (ofWritten rest) := by
      refine Chain.ext ?_ (filterMap_append_combinator simple _ _)
      exact (Selector.runs_append_break run broken rest).trans
        (congrArg (· ++ _) (Selector.runs_of_unbroken simple))
    rw [whole, written_link, ih]

end Chain

namespace Selector

/-- **Written and stored order lead to each other.** What is read off a stored chain is what the
chain is written as, with the same compounds and the same combinators, and a selector that is made
of it has the stored order again. What any selector is written as is a chain, the only one that is
stored as the selector is, and has the same components. -/
theorem written_stored :
    (∀ (chain : Chain) (flags : SelectorFlags),
      (Selector.mk chain.stored flags).written = chain.written ∧
        (Selector.mk chain.stored flags).compounds = chain.compounds ∧
        (Selector.mk chain.stored flags).combinators = chain.joints ∧
        (ofWritten chain.written).components = chain.stored) ∧
    ∀ selector : Selector,
      (Chain.ofWritten selector.written).written = selector.written ∧
        (Chain.ofWritten selector.written).stored = selector.components ∧
        (∀ chain : Chain, chain.stored = selector.components →
          chain = Chain.ofWritten selector.written) ∧
        selector.written.Perm selector.components := by
  -- stored and written order are turns of each other, and turning twice changes nothing
  have read (chain : Chain) (flags : SelectorFlags) :
      (Selector.mk chain.stored flags).written = chain.written := by
    rw [written, components, ← chain.turn_written, turn_turn]
  constructor
  · intro chain flags
    refine ⟨read chain flags, ?_, ?_, chain.turn_written⟩
    · rw [compounds, read]
      exact chain.runs_written
    · rw [combinators, read, chain.filterMap_written]
  · intro selector
    have source := Chain.written_ofWritten selector.written
    refine ⟨source, ?_, fun chain same => ?_, turn_perm _⟩
    · rw [← Chain.turn_written, source, written, turn_turn]
    · rw [written, ← same, ← chain.turn_written, turn_turn, chain.ofWritten_written]

/-- A pseudo-element is stored first, behind it its combinator and the compound that it hangs
off. -/
example :
    (Selector.mk [.pseudoElement (.known "before"), .combinator .pseudoElement, .class "title",
        .combinator .child, .type "a", .class "card"] {}).written =
      [.type "a", .class "card", .combinator .child, .class "title", .combinator .pseudoElement,
        .pseudoElement (.known "before")] :=
  rfl

end Selector

end StyleGraph.Css
