import StyleGraph.Proofs.Finish.Split

/-!
# Boosting rules that compose classes

A boost puts the boosted form in the place of a selector, so a rule that composes classes may be
left without a single class; such a rule is not split, and the sheet has no finished form. A sheet
that could be finished without the boost can be with it exactly if every rule at the top that
composes classes has a single class which the boost leaves alone (`finishes_boost_iff`). The
smallest boost of one class is enough to fail (`fails_boost_card`).
-/

set_option autoImplicit false

namespace StyleGraph

namespace Css.Rule

variable {depth : Nat}

/-! ## What the split does to composing -/

mutual

/-- Below the top of a sheet the split does not help: a rule that composes classes still does. -/
theorem composesWellAll_splitComposes_below (depth : Nat) : ∀ rule : Rule,
    composesWellAll (depth + 1) rule.splitComposes = rule.composesWell (depth + 1)
  | .style selectors block rules => by
    rcases @splitComposes_style selectors block rules with ⟨composes, _, _, split⟩ | ⟨_, kept⟩
    · have unwell (selectors : List Selector) :
          (Rule.style selectors block rules).composesWell (depth + 1) = false := by
        simp [composesWell, composes]
      rw [split, composesWellAll, unwell, unwell, Bool.false_and]
    · rw [kept, composesWellAll, composesWellAll, Bool.and_true]
  | .group header rules => by
    rw [splitComposes_group, composesWellAll, composesWellAll, Bool.and_true, composesWell_group,
      composesWell_group]
    split
    · exact composesWellAll_splitComposesAll_below (depth + 1) rules
    · rfl
  | .declarations _ => by rw [splitComposes, composesWellAll, composesWellAll, Bool.and_true]
  | .leaf _ => by rw [splitComposes, composesWellAll, composesWellAll, Bool.and_true]

/-- Below the top level the split changes nothing the printer asks about, since only rules at the
top level are split and a `composes` deeper down is refused before and after. -/
theorem composesWellAll_splitComposesAll_below (depth : Nat) : ∀ rules : List Rule,
    composesWellAll (depth + 1) (splitComposesAll rules) = composesWellAll (depth + 1) rules
  | [] => rfl
  | rule :: rest => by
    rw [splitComposesAll, composesWellAll_append, composesWellAll_splitComposes_below depth rule,
      composesWellAll_splitComposesAll_below depth rest, composesWellAll]

end

/-- At the top of a sheet a rule that composes classes needs a single class. The split is what gives
the rule one, by taking the other selectors apart. -/
theorem composesWellAll_splitComposes_top {selectors : List Selector} {block : Block}
    {rules : List Rule} :
    composesWellAll 0 (Rule.style selectors block rules).splitComposes = true ↔
      (block.hasComposes = true → HasSingle selectors) ∧ composesWellAll 1 rules = true := by
  rcases @splitComposes_style selectors block rules with
    ⟨composes, some, others, split⟩ | ⟨whole, kept⟩
  · have plain := Block.hasComposes_filter block
    have single := hasSingle_iff.mpr fun none => absurd none some
    rw [split, composesWellAll_iff]
    simp only [List.mem_cons, List.not_mem_nil, or_false, forall_eq_or_imp, forall_eq,
      composesWell_style, uncomposed, plain, singles_singles, single]
    simp
  · rw [kept, composesWellAll_iff]
    simp only [List.mem_singleton, forall_eq, composesWell_style, true_and]
    refine and_congr_left fun _ => forall_congr' fun composes => ?_
    rw [hasSingle_iff, ← others_eq_nil_iff]
    exact ⟨fun none _ => none, fun implied => (whole composes).elim implied id⟩

/-- A style rule that composes classes has selectors that satisfy `p`. -/
def ComposedBy (p : List Selector → Prop) : Rule → Prop
  | .style selectors block _ => block.hasComposes = true → p selectors
  | _ => True

/-- Only what the condition says of each list counts, not how it says it. -/
theorem ComposedBy.congr {p q : List Selector → Prop} (same : ∀ selectors, p selectors ↔ q selectors)
    (rule : Rule) : rule.ComposedBy p ↔ rule.ComposedBy q := by
  cases rule with
  | style selectors block rules => exact forall_congr' fun _ => same selectors
  | _ => rfl

/-- **What decides whether changed and split rules compose well**: the single classes of those at
the top, and what stands below them. -/
theorem composesWellAll_splitComposesAll (f : List Selector → List Selector) (rules : List Rule) :
    composesWellAll 0 (splitComposesAll (mapSelectorsAll f rules)) = true ↔
      (∀ rule ∈ rules, rule.ComposedBy fun selectors => HasSingle (f selectors)) ∧
        ∀ rule ∈ rules, composesWellAll 1 rule.inner = true := by
  have one (rule : Rule) : composesWellAll 0 (rule.mapSelectors f).splitComposes = true ↔
      (rule.ComposedBy fun selectors => HasSingle (f selectors)) ∧
        composesWellAll 1 rule.inner = true := by
    cases rule with
    | style selectors block inner =>
      rw [mapSelectors, composesWellAll_splitComposes_top, composesWellAll_mapSelectorsAll]
      rfl
    | group header inner =>
      have below : composesWellAll 0 ((Rule.group header inner).mapSelectors f).splitComposes =
          composesWellAll 1 inner := by
        rw [mapSelectors, splitComposes_group, composesWellAll, composesWellAll, Bool.and_true,
          composesWell_group, ← composesWellAll_mapSelectorsAll f 0 inner]
        split
        · rw [composesWellAll_splitComposesAll_below]
        · rfl
      rw [below]
      exact (and_iff_right trivial).symm
    | declarations block =>
      refine iff_of_true ?_ ⟨trivial, rfl⟩
      simp [mapSelectors, splitComposes, composesWellAll, composesWell]
    | leaf other => exact iff_of_true rfl ⟨trivial, rfl⟩
  induction rules with
  | nil => simp [mapSelectorsAll, splitComposesAll, composesWellAll]
  | cons rule rest ih =>
    rw [mapSelectorsAll, splitComposesAll, composesWellAll_append, Bool.and_eq_true,
      List.forall_mem_cons, List.forall_mem_cons]
    exact (and_congr (one rule) ih).trans and_and_and_comm

end Css.Rule

namespace Stable

open Css Rule

/-! ## Selectors that a boost leaves single -/

/-- One of the selectors is a single class that the boost leaves alone, if there are any. -/
def Boost.Spares (boost : Boost) (selectors : List Selector) : Prop :=
  selectors = [] ∨ ∃ selector ∈ selectors, ∃ name, selector.singleClass? = some name ∧
    (boost.times = 0 ∨ boost.accepts name = false)

/-- After boosting, a list has a single class exactly if it had one that the boost leaves alone. A
boosted class is repeated and no longer single. -/
theorem hasSingle_apply_ofBoost (boost : Boost) (selectors : List Selector) :
    HasSingle (Pipeline.apply [Transform.ofBoost boost] selectors) ↔ boost.Spares selectors := by
  refine or_congr (by rw [apply_ofBoost, List.map_eq_nil_iff]) ?_
  rw [exists_single_ofBoost]
  refine exists_congr fun selector => and_congr_right fun _ => ?_
  rw [Option.isSome_iff_exists, exists_and_right.symm]
  exact exists_congr fun name => and_congr_right fun single => Boost.rewrite_single single

/-- The transforms of a sheet whose names are local, if there are no others. -/
def localPipeline (stable : AutoStable) (boost : Option Boost) : Pipeline :=
  (boost.map Transform.ofBoost).toList ++ ((Scheme.ofOption? stable).map fun scheme =>
    Transform.ofScheme { scheme with wrapsGlobal := true }).toList

/-- Stable variants are not single classes, so only the boost counts. -/
theorem hasSingle_apply_localPipeline (stable : AutoStable) (boost : Option Boost)
    (selectors : List Selector) :
    HasSingle ((localPipeline stable boost).apply selectors) ↔
      HasSingle (Pipeline.apply (boost.map Transform.ofBoost).toList selectors) := by
  rw [localPipeline, Pipeline.apply, List.foldl_append]
  cases Scheme.ofOption? stable with
  | none => rfl
  | some scheme => exact hasSingle_apply_ofScheme rfl

end Stable

open Css Stable

/-- The sheet that is written when names are local, but for making it short. -/
def splitSheet (stable : AutoStable) (boost : Option Boost) (sheet : Sheet) : Sheet :=
  ⟨Rule.splitComposesAll ((localPipeline stable boost).run sheet).rules⟩

/-- Where names are local, a text that is a sheet has a finished form if what is written composes
well. -/
theorem isSome_finish? {css : String} {sheet : Sheet} (read : Sheet.ofText? true css = some sheet)
    (minify : Bool) (stable : AutoStable) (boost : Option Boost) :
    (finish? css { minify, modules := true } stable boost).isSome =
      (let written := splitSheet stable boost sheet
        if minify then written.minify else written).composesWell := by
  have pipeline : ([] : Pipeline) ++ (boost.map Transform.ofBoost).toList ++
      (((Scheme.ofOption? stable).map fun scheme => { scheme with wrapsGlobal := true }).map
        Transform.ofScheme).toList = localPipeline stable boost := by
    rw [localPipeline, List.nil_append, Option.map_map]
    rfl
  have some_iff (well : Bool) (text : String) (finished : String → Finished) :
      ((if well = true then some text else none).bind fun css => some (finished css)).isSome =
        well := by
    cases well <;> rfl
  unfold finish?
  simp only [read, pipeline, Option.bind_eq_bind, Option.bind_some, Sheet.text?, if_true,
    Option.isNone_some, Bool.false_or, splitSheet]
  exact some_iff _ _ _

/-- **When a boost leaves a sheet with a finished form.** A text that has one without the boost has
one with it exactly if each rule at its top that composes classes has a single class which the boost
leaves alone; and then it has a short one too. -/
theorem finishes_boost_iff {css : String} {sheet : Sheet}
    (read : Sheet.ofText? true css = some sheet) (stable : AutoStable) (boost : Boost)
    (unboosted : (finish? css { modules := true } stable none).isSome = true) :
    ((finish? css { modules := true } stable (some boost)).isSome = true ↔
        ∀ rule ∈ sheet.rules, rule.ComposedBy boost.Spares) ∧
      ((∀ rule ∈ sheet.rules, rule.ComposedBy boost.Spares) →
        (finish? css { minify := true, modules := true } stable (some boost)).isSome = true) := by
  have well (boost : Option Boost) := (Rule.composesWellAll_splitComposesAll
    (localPipeline stable boost).apply sheet.rules)
  rw [isSome_finish? read] at unboosted
  -- Below the top selectors make no difference, so what composes well there does with the boost.
  have inner : ∀ rule ∈ sheet.rules, Rule.composesWellAll 1 rule.inner = true :=
    ((well none).mp unboosted).2
  have spared : (splitSheet stable (some boost) sheet).composesWell = true ↔
      ∀ rule ∈ sheet.rules, rule.ComposedBy boost.Spares := by
    refine (well (some boost)).trans ((and_iff_left inner).trans ?_)
    refine forall₂_congr fun rule _ => Rule.ComposedBy.congr (fun selectors => ?_) rule
    exact (hasSingle_apply_localPipeline stable _ selectors).trans
      (hasSingle_apply_ofBoost boost selectors)
  refine ⟨?_, fun spares => ?_⟩
  · rw [isSome_finish? read]
    exact spared
  · rw [isSome_finish? read]
    exact Sheet.composesWell_minify (spared.mpr spares)

/-- A rule that composes classes and has two classes. -/
def pairText : String := ".a, .b { composes: c; color: red }"

/-- A boost of the classes whose names have an `a`. -/
def boostOfA : Boost := { times := 2, patterns := [⟨"a", .one false (.range 'a' 'a')⟩] }

/-- The statement at a rule that composes beside one that is boosted: the sheet prints, as the
composing class is not among the boosted ones. -/
theorem finishes_boost_pair :
    ∃ sheet, Sheet.ofText? true pairText = some sheet ∧
      (finish? pairText { modules := true } .enabled none).isSome = true ∧
      (∀ rule ∈ sheet.rules, rule.ComposedBy boostOfA.Spares) ∧
      (finish? pairText { minify := true, modules := true } .enabled
        (some boostOfA)).isSome = true := by
  obtain ⟨found, unboosted, boosted⟩ : (Sheet.ofText? true pairText).isSome = true ∧
      (finish? pairText { modules := true } .enabled none).isSome = true ∧
      (finish? pairText { modules := true } .enabled (some boostOfA)).isSome = true := by
    decide +kernel
  cases read : Sheet.ofText? true pairText with
  | none =>
    rw [read] at found
    cases found
  | some sheet =>
    have both := finishes_boost_iff read .enabled boostOfA unboosted
    have spares := both.1.mp boosted
    exact ⟨sheet, rfl, unboosted, spares, both.2 spares⟩

/-- A rule that composes a class, and the class. -/
def cardText : String := ".a { composes: b; color: red } .b { color: blue }"

/-- The boost of every class by one leaves a rule that composes classes without a single class, and
the sheet without a finished form. -/
theorem fails_boost_card :
    (finish? cardText { modules := true } .disabled none).isSome = true ∧
      finish? cardText { modules := true } .disabled (some { times := 1 }) = none ∧
      (finish? cardText { minify := true, modules := true } .enabled none).isSome = true ∧
      finish? cardText { minify := true, modules := true } .enabled (some { times := 1 }) =
        none := by
  decide +kernel

end StyleGraph
