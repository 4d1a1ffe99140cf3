import StyleGraph.Finish
import StyleGraph.Proofs.Css.Composes
import StyleGraph.Proofs.Stable.Single

/-!
# Splitting rules that compose classes

A rule that composes classes and has selectors of both kinds becomes two neighbours: one with its
single classes and all declarations, one with its other selectors and all declarations but those
that compose. Nothing else changes (`splits_splitComposesAll`).

The split enters some groups only, and no style rules. Where it gets to, rules that compose keep
single classes as their only selectors when stable variants are added; elsewhere they do just if no
class of theirs gets one (`composesSingly_splitComposes_iff`, `composesSingly_scoped`).
-/

set_option autoImplicit false

namespace StyleGraph.Css

/-- The groups that the split enters. -/
def Header.isSplit : Header → Bool
  | .media _ | .supports _ | .layer _ | .container _ _ => true
  | _ => false

namespace Rule

/-- The selectors of a list that are single classes. -/
def singles (selectors : List Selector) : List Selector :=
  selectors.filter fun selector => selector.singleClass?.isSome

/-- The other selectors of a list. -/
def others (selectors : List Selector) : List Selector :=
  selectors.filter fun selector => selector.singleClass?.isNone

/-- The declarations of a block but those that compose classes. -/
def uncomposed (block : Block) : Block := block.filter fun declaration => !declaration.isComposes

/-! ## One rule -/

/-- Nothing is left over if all selectors are single classes. -/
theorem others_eq_nil_iff {selectors : List Selector} :
    others selectors = [] ↔ Singles selectors := by
  simp [others, Singles, List.filter_eq_nil_iff, Option.isSome_iff_ne_none]

/-- One of the selectors is a single class, if there are any. -/
def HasSingle (selectors : List Selector) : Prop :=
  selectors = [] ∨ ∃ selector ∈ selectors, selector.singleClass?.isSome = true

/-- A list of single classes has one, as it is not empty. -/
theorem hasSingle_of_singles {selectors : List Selector} (single : Singles selectors) :
    HasSingle selectors := by
  cases selectors with
  | nil => exact .inl rfl
  | cons selector rest =>
    exact .inr ⟨selector, List.mem_cons_self, single selector List.mem_cons_self⟩

/-- A list that has a single class, or nothing at all, has no others unless it has single classes. -/
theorem hasSingle_iff {selectors : List Selector} :
    HasSingle selectors ↔ (singles selectors = [] → others selectors = []) := by
  constructor
  · rintro (rfl | ⟨selector, mem, single⟩) none
    · rfl
    · exact absurd single (List.filter_eq_nil_iff.mp none selector mem)
  · intro none
    by_cases some : singles selectors = []
    · exact hasSingle_of_singles (others_eq_nil_iff.mp (none some))
    · obtain ⟨selector, mem⟩ := List.exists_mem_of_ne_nil _ some
      exact .inr ⟨selector, List.mem_filter.mp mem⟩

/-- What is taken out are single classes. -/
theorem singles_singles (selectors : List Selector) : Singles (singles selectors) :=
  fun _ mem => (List.mem_filter.mp mem).2

/-- Taking single classes out changes the order of the selectors only. -/
theorem singles_append_others_perm (selectors : List Selector) :
    (singles selectors ++ others selectors).Perm selectors := by
  have negated : others selectors =
      selectors.filter fun selector => !selector.singleClass?.isSome := by
    simp [others]
  rw [negated]
  exact List.filter_append_perm _ selectors

variable {selectors : List Selector} {block : Block} {rules : List Rule}

/-- What the split makes of a style rule. It is cut in two just if it composes and has selectors of
both sorts. -/
theorem splitComposes_style :
    (block.hasComposes = true ∧ singles selectors ≠ [] ∧ others selectors ≠ [] ∧
      (Rule.style selectors block rules).splitComposes =
        [.style (singles selectors) block rules,
          .style (others selectors) (uncomposed block) rules]) ∨
    ((block.hasComposes = true → singles selectors = [] ∨ others selectors = []) ∧
      (Rule.style selectors block rules).splitComposes = [.style selectors block rules]) := by
  unfold splitComposes
  dsimp only
  split
  next parts =>
    simp only [Bool.and_eq_true, Bool.not_eq_true', List.isEmpty_eq_false_iff] at parts
    exact .inl ⟨parts.1.1, parts.1.2, parts.2, rfl⟩
  next whole =>
    refine .inr ⟨fun composes => ?_, rfl⟩
    simp only [composes, Bool.true_and, Bool.and_eq_true, Bool.not_eq_true',
      List.isEmpty_eq_false_iff, not_and_or, ne_eq, not_not] at whole
    exact whole

/-- Inside of a group rules are split if the group is one of those that are entered. -/
theorem splitComposes_group {header : Header} :
    (Rule.group header rules).splitComposes =
      [.group header (if header.isSplit then splitComposesAll rules else rules)] := by
  cases header <;> rfl

/-! ## Whole sheets -/

/-- Rules, and the same rules with some style rules in them split: each into the single classes
among its selectors and the other selectors, in the order of the list; the second rule lacks what
composes, and follows the first. -/
inductive Splits : List Rule → List Rule → Prop
  | nil : Splits [] []
  | keep (rule : Rule) {rest after : List Rule} :
    Splits rest after → Splits (rule :: rest) (rule :: after)
  | inside (header : Header) {inner innerAfter rest after : List Rule} :
    Splits inner innerAfter → Splits rest after →
      Splits (.group header inner :: rest) (.group header innerAfter :: after)
  | parts {selectors first second : List Selector} {block plain : Block}
    {inner rest after : List Rule} :
    (first ++ second).Perm selectors → first.Sublist selectors → second.Sublist selectors →
      first ≠ [] → second ≠ [] → Singles first →
      (∀ selector ∈ second, selector.singleClass? = none) →
      plain.normal = (block.normal.filter fun declaration => !declaration.isComposes) →
      plain.important = (block.important.filter fun declaration => !declaration.isComposes) →
      Splits rest after →
      Splits (.style selectors block inner :: rest)
        (.style first block inner :: .style second plain inner :: after)

/-- **The split keeps the order of rules, and of the declarations and the selectors of each, and
loses and doubles no selector.** -/
theorem splits_splitComposesAll : ∀ rules : List Rule, Splits rules (splitComposesAll rules)
  | [] => .nil
  | .style selectors block inner :: rest => by
    have after := splits_splitComposesAll rest
    rw [splitComposesAll]
    rcases @splitComposes_style selectors block inner with
      ⟨_, first, second, split⟩ | ⟨_, kept⟩
    · rw [split]
      exact .parts (singles_append_others_perm selectors) List.filter_sublist List.filter_sublist
        first second (singles_singles selectors)
        (fun selector mem => Option.isNone_iff_eq_none.mp (List.mem_filter.mp mem).2) rfl rfl after
    · rw [kept]
      exact .keep _ after
  | .group header inner :: rest => by
    have after := splits_splitComposesAll rest
    rw [splitComposesAll, splitComposes_group]
    split
    · exact .inside header (splits_splitComposesAll inner) after
    · exact .keep _ after
  | .declarations block :: rest => .keep _ (splits_splitComposesAll rest)
  | .leaf other :: rest => .keep _ (splits_splitComposesAll rest)

/-! ## Rules that compose keep to single classes -/

mutual

/-- Whether the style rules in a rule that compose classes have single classes as their only
selectors. -/
def composesSingly : Rule → Bool
  | .style selectors block rules =>
    (!block.hasComposes || selectors.all fun selector => selector.singleClass?.isSome) &&
      composesSinglyAll rules
  | .group _ rules => composesSinglyAll rules
  | .declarations _ => true
  | .leaf _ => true

/-- Whether the style rules in a list of rules that compose classes have single classes as their
only selectors. -/
def composesSinglyAll : List Rule → Bool
  | [] => true
  | rule :: rest => rule.composesSingly && composesSinglyAll rest

end

/-- Rules before and behind are looked at one after the other. -/
theorem composesSinglyAll_append {before after : List Rule} :
    composesSinglyAll (before ++ after) =
      (composesSinglyAll before && composesSinglyAll after) := by
  induction before with
  | nil => rfl
  | cons rule rest ih =>
    rw [List.cons_append, composesSinglyAll, composesSinglyAll, ih, Bool.and_assoc]

/-- A style rule composes singly if all of its selectors are single classes, or it composes nothing.
-/
theorem composesSingly_style :
    (Rule.style selectors block rules).composesSingly = true ↔
      (block.hasComposes = true → Singles selectors) ∧ composesSinglyAll rules = true := by
  cases composes : block.hasComposes <;> simp [composesSingly, composes, Singles]

/-- A style rule that the split gets to keeps to single classes if it has one, whatever its other
selectors are. -/
theorem composesSinglyAll_splitComposes_style
    (some : block.hasComposes = true → HasSingle selectors) :
    composesSinglyAll (Rule.style selectors block rules).splitComposes =
      composesSinglyAll rules := by
  rcases @splitComposes_style selectors block rules with ⟨_, _, _, split⟩ | ⟨whole, kept⟩
  · have first : (Rule.style (singles selectors) block rules).composesSingly =
        composesSinglyAll rules := by
      rw [Bool.eq_iff_iff, composesSingly_style]
      exact and_iff_right fun _ => singles_singles selectors
    have second : (Rule.style (others selectors) (uncomposed block) rules).composesSingly =
        composesSinglyAll rules := by
      rw [composesSingly, uncomposed, Block.hasComposes_filter]
      rfl
    rw [split, composesSinglyAll, composesSinglyAll, first, second]
    simp [composesSinglyAll]
  · rw [kept, composesSinglyAll, composesSinglyAll, Bool.and_true, Bool.eq_iff_iff,
      composesSingly_style]
    refine and_iff_right fun composes => others_eq_nil_iff.mp ?_
    exact (whole composes).elim (hasSingle_iff.mp (some composes)) id

end Rule

end StyleGraph.Css

namespace StyleGraph.Stable

open Css

variable (scheme : Scheme)

mutual

/-- Whether a style rule in a rule composes classes and has a class that gets a stable variant. -/
def composesStable : Rule → Bool
  | .style selectors block rules =>
    (block.hasComposes && selectors.any fun selector => selector.singleClass?.any scheme.accepts) ||
      composesStableAll rules
  | .group _ rules => composesStableAll rules
  | .declarations _ => false
  | .leaf _ => false

/-- Whether a style rule in a list of rules composes classes and has a class that gets a stable
variant. -/
def composesStableAll : List Rule → Bool
  | [] => false
  | rule :: rest => composesStable rule || composesStableAll rest

end

mutual

/-- Whether a rule composes classes and has a class that gets a stable variant, where the split does
not get to: below a style rule, or in a group that it does not enter. -/
def hidesStable : Rule → Bool
  | .style _ _ rules => composesStableAll scheme rules
  | .group header rules =>
    if header.isSplit then hidesStableAll rules else composesStableAll scheme rules
  | .declarations _ => false
  | .leaf _ => false

/-- Whether one of the rules is hidden from the split. -/
def hidesStableAll : List Rule → Bool
  | [] => false
  | rule :: rest => hidesStable rule || hidesStableAll rest

end

variable {scheme}

/-- Single classes stay the only selectors of a list if none of them gets a variant. A variant of a
single class is no single class itself, since it is wrapped as global. -/
theorem singles_apply_iff (wraps : scheme.wrapsGlobal = true) {selectors : List Selector}
    (single : Rule.Singles selectors) :
    Rule.Singles (Pipeline.apply [Transform.ofScheme scheme] selectors) ↔
      (selectors.any fun selector => selector.singleClass?.any scheme.accepts) = false := by
  have accepted : ∀ selector ∈ selectors,
      selector.singleClass?.any scheme.accepts = (scheme.rewriteSelector selector).2 := by
    intro selector mem
    obtain ⟨name, is⟩ := Option.isSome_iff_exists.mp (single selector mem)
    rw [Scheme.rewriteSelector_single is, is, Option.any_some]
  rw [List.any_eq_false]
  constructor
  · intro applied selector mem gets
    have changed := accepted selector mem ▸ gets
    have variant := applied _ (mem_apply_ofScheme.mpr (.inr ⟨selector, mem, changed, rfl⟩))
    rw [Scheme.singleClass?_rewriteSelector wraps changed] at variant
    cases variant
  · intro unchanged
    have same := apply_ofScheme_of_closed fun selector mem changed =>
      absurd (accepted selector mem ▸ changed) (unchanged selector mem)
    rw [same]
    exact single

/-- Adding variants leaves no list empty and fills none that is. -/
theorem apply_ofScheme_eq_nil_iff {selectors : List Selector} :
    Pipeline.apply [Transform.ofScheme scheme] selectors = [] ↔ selectors = [] := by
  constructor
  · intro none
    refine List.eq_nil_iff_forall_not_mem.mpr fun selector mem => ?_
    have kept : selector ∈ Pipeline.apply [Transform.ofScheme scheme] selectors :=
      mem_apply_ofScheme.mpr (.inl mem)
    rw [none] at kept
    cases kept
  · rintro rfl
    rfl

/-- Stable variants do not change whether one of the selectors is a single class. -/
theorem hasSingle_apply_ofScheme (wraps : scheme.wrapsGlobal = true) {selectors : List Selector} :
    Rule.HasSingle (Pipeline.apply [Transform.ofScheme scheme] selectors) ↔
      Rule.HasSingle selectors :=
  or_congr apply_ofScheme_eq_nil_iff (exists_single_ofScheme wraps)

mutual

/-- Where rules are not split, those that compose keep to single classes if none of these gets a
variant. -/
theorem composesSingly_mapSelectors (wraps : scheme.wrapsGlobal = true) : ∀ {rule : Rule},
    rule.composesSingly = true →
    (rule.mapSelectors (Pipeline.apply [Transform.ofScheme scheme])).composesSingly =
      !composesStable scheme rule
  | .style selectors block rules => by
    intro singly
    obtain ⟨single, inner⟩ := Rule.composesSingly_style.mp singly
    rw [Rule.mapSelectors, Rule.composesSingly, composesStable,
      composesSinglyAll_mapSelectorsAll wraps inner, Bool.not_or]
    congr 1
    cases composes : block.hasComposes with
    | false => rfl
    | true =>
      have applied := singles_apply_iff wraps (single composes)
      rw [Bool.not_true, Bool.false_or, Bool.true_and, Bool.eq_iff_iff, Bool.not_eq_true',
        ← applied, List.all_eq_true]
      rfl
  | .group _ rules => fun singly => composesSinglyAll_mapSelectorsAll wraps singly
  | .declarations _ => fun _ => rfl
  | .leaf _ => fun _ => rfl

/-- The same for a list of rules, by the same recursion. -/
theorem composesSinglyAll_mapSelectorsAll (wraps : scheme.wrapsGlobal = true) :
    ∀ {rules : List Rule},
    Rule.composesSinglyAll rules = true →
    Rule.composesSinglyAll (Rule.mapSelectorsAll
      (Pipeline.apply [Transform.ofScheme scheme]) rules) = !composesStableAll scheme rules
  | [] => fun _ => rfl
  | rule :: rest => by
    intro singly
    obtain ⟨first, others⟩ := Bool.and_eq_true_iff.mp singly
    rw [Rule.mapSelectorsAll, Rule.composesSinglyAll, composesSingly_mapSelectors wraps first,
      composesSinglyAll_mapSelectorsAll wraps others, composesStableAll, Bool.not_or]

end

mutual

/-- Rules with stable variants keep to single classes when they are split, but for those that the
split does not get to. -/
theorem composesSinglyAll_splitComposes (wraps : scheme.wrapsGlobal = true) : ∀ {rule : Rule},
    rule.composesSingly = true →
    Rule.composesSinglyAll
      (rule.mapSelectors (Pipeline.apply [Transform.ofScheme scheme])).splitComposes =
        !hidesStable scheme rule
  | .style selectors block rules => by
    intro singly
    obtain ⟨single, inner⟩ := Rule.composesSingly_style.mp singly
    rw [Rule.mapSelectors, hidesStable, ← composesSinglyAll_mapSelectorsAll wraps inner]
    -- The rule still has a single class, so only the rules below it count, which are not split.
    refine Rule.composesSinglyAll_splitComposes_style fun composes => ?_
    exact (hasSingle_apply_ofScheme wraps).mpr (Rule.hasSingle_of_singles (single composes))
  | .group header rules => by
    intro singly
    have inner : Rule.composesSinglyAll rules = true := singly
    rw [Rule.mapSelectors, Rule.splitComposes_group, hidesStable, Rule.composesSinglyAll,
      Rule.composesSinglyAll, Bool.and_true, Rule.composesSingly]
    split
    · exact composesSinglyAll_splitComposesAll wraps inner
    · exact composesSinglyAll_mapSelectorsAll wraps inner
  | .declarations _ => fun _ => rfl
  | .leaf _ => fun _ => rfl

/-- The same for a list of rules, by the same recursion. -/
theorem composesSinglyAll_splitComposesAll (wraps : scheme.wrapsGlobal = true) :
    ∀ {rules : List Rule},
    Rule.composesSinglyAll rules = true →
    Rule.composesSinglyAll (Rule.splitComposesAll (Rule.mapSelectorsAll
      (Pipeline.apply [Transform.ofScheme scheme]) rules)) = !hidesStableAll scheme rules
  | [] => fun _ => rfl
  | rule :: rest => by
    intro singly
    obtain ⟨first, others⟩ := Bool.and_eq_true_iff.mp singly
    rw [Rule.mapSelectorsAll, Rule.splitComposesAll, Rule.composesSinglyAll_append,
      composesSinglyAll_splitComposes wraps first, composesSinglyAll_splitComposesAll wraps others,
      hidesStableAll, Bool.not_or]

end

/-- Stable variants come behind the selectors that a list has. -/
theorem prefix_apply_ofScheme (scheme : Scheme) (selectors : List Selector) :
    selectors <+: Pipeline.apply [Transform.ofScheme scheme] selectors := by
  have prefix_insert (before : List Selector) (selector : Selector) :
      before <+: Transform.insert before selector := by
    unfold Transform.insert
    split
    · exact List.prefix_refl _
    · exact List.prefix_append _ _
  exact List.foldlRecOn (selectors.filterMap (Transform.ofScheme scheme).rewrite) Transform.insert
    (List.prefix_refl selectors) fun before held selector _ =>
      held.trans (prefix_insert before selector)

/-- **Stable variants and the split.** In a sheet whose rules that compose classes have single
classes as their only selectors, every list of selectors gets its stable variants behind what it
has, and the split then keeps rules, declarations and selectors as `Rule.Splits` says. The rules
that compose classes still have single classes as their only selectors just if none of those that
the split does not get to has a class with a stable variant. -/
theorem composesSingly_splitComposes_iff {scheme : Scheme} (wraps : scheme.wrapsGlobal = true)
    (sheet : Sheet) (singly : Rule.composesSinglyAll sheet.rules = true) :
    let visited := Pipeline.run [Transform.ofScheme scheme] sheet
    (∀ selectors, selectors <+: Pipeline.apply [Transform.ofScheme scheme] selectors) ∧
      Rule.Splits visited.rules (Rule.splitComposesAll visited.rules) ∧
      (Rule.composesSinglyAll (Rule.splitComposesAll visited.rules) = true ↔
        hidesStableAll scheme sheet.rules = false) := by
  intro visited
  refine ⟨prefix_apply_ofScheme scheme, Rule.splits_splitComposesAll visited.rules, ?_⟩
  have kept := composesSinglyAll_splitComposesAll wraps singly
  have mapped : visited.rules =
      Rule.mapSelectorsAll (Pipeline.apply [Transform.ofScheme scheme]) sheet.rules := rfl
  rw [mapped, kept, Bool.not_eq_true']

/-- The scheme of the default namespace where names are local. -/
def localScheme : Scheme := { Scheme.ofSpace defaultNamespace with wrapsGlobal := true }

/-- A rule that composes classes, in a group that the split enters and at the top. -/
def printedText : String :=
  "@media print { .a { composes: b; color: red } } .b, .c { composes: d; color: blue }"

/-- A sheet that composes inside of an entered group. -/
theorem composesSingly_splitComposes_printed :
    ∃ sheet, Sheet.ofText? true printedText = some sheet ∧ localScheme.wrapsGlobal = true ∧
      Rule.composesSinglyAll sheet.rules = true ∧
      Rule.composesSinglyAll (Rule.splitComposesAll
        (Pipeline.run [Transform.ofScheme localScheme] sheet).rules) = true := by
  have wraps : localScheme.wrapsGlobal = true := rfl
  have chars : printedText.toList = _ := String.toList_ofList
  have found : (Sheet.ofText? true printedText).any (fun sheet =>
      Rule.composesSinglyAll sheet.rules && !hidesStableAll localScheme sheet.rules) = true := by
    rewrite [Sheet.ofText?, Piece.ofText, chars]
    decide +kernel
  cases read : Sheet.ofText? true printedText with
  | none =>
    rw [read] at found
    cases found
  | some sheet =>
    rw [read, Option.any_some, Bool.and_eq_true, Bool.not_eq_true'] at found
    obtain ⟨singly, hidden⟩ := found
    have kept := composesSingly_splitComposes_iff wraps sheet singly
    exact ⟨sheet, rfl, wraps, singly, kept.2.2.mpr hidden⟩

/-- A group that the split does not enter. -/
def scopedText : String := "@scope (.x) { .a { composes: b; color: red } }"

/-- In such a group the rule keeps what it composes and gets another kind of selector. -/
theorem composesSingly_scoped :
    (Sheet.ofText? true scopedText).any (fun sheet =>
      Rule.composesSinglyAll sheet.rules &&
        !Rule.composesSinglyAll (Rule.splitComposesAll
          (Pipeline.run [Transform.ofScheme localScheme] sheet).rules)) = true := by
  decide +kernel

end StyleGraph.Stable
