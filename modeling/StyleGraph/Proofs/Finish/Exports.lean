import StyleGraph.Proofs.Finish.Split
import StyleGraph.Proofs.Stable.Collection
import StyleGraph.Proofs.Stable.Composition

/-!
# Stable classes that a class map names

A class map is made from what a sheet exports, stable variants are made of its selectors. So the
two need not agree: a map names the stable class of every exported name that is accepted, and an
exported name may be an id or an animation, or a class where no variants are made. Such a stable
class is in the sheet only if it was there before, or another name has the same one and gets a
variant (`finishes_promised`, `breaks_promise_hero`).
-/

set_option autoImplicit false

namespace StyleGraph.Css

/-! ## The selectors of a sheet -/

/-- The selectors of a group. -/
def Header.selectors : Header → List Selector
  | .scope start stop => start.getD [] ++ stop.getD []
  | _ => []

mutual

/-- The selectors of the groups in a rule. -/
def Rule.preludes : Rule → List Selector
  | .style _ _ rules => Rule.preludesOfAll rules
  | .group header rules => header.selectors ++ Rule.preludesOfAll rules
  | .declarations _ => []
  | .leaf _ => []

/-- The selectors of the groups in a list of rules. -/
def Rule.preludesOfAll : List Rule → List Selector
  | [] => []
  | rule :: rest => rule.preludes ++ Rule.preludesOfAll rest

end

mutual

/-- Selectors in the header of a group are no rule's own list, and a change of the lists leaves
them. -/
theorem Rule.preludes_mapSelectors (f : List Selector → List Selector) : ∀ rule : Rule,
    (rule.mapSelectors f).preludes = rule.preludes
  | .style _ _ rules => Rule.preludesOfAll_mapSelectorsAll f rules
  | .group header rules =>
    congrArg (header.selectors ++ ·) (Rule.preludesOfAll_mapSelectorsAll f rules)
  | .declarations _ => rfl
  | .leaf _ => rfl

/-- A change of the selectors of style rules keeps those of groups. -/
theorem Rule.preludesOfAll_mapSelectorsAll (f : List Selector → List Selector) :
    ∀ rules : List Rule,
      Rule.preludesOfAll (Rule.mapSelectorsAll f rules) = Rule.preludesOfAll rules
  | [] => rfl
  | rule :: rest => by
    rw [Rule.mapSelectorsAll, Rule.preludesOfAll, Rule.preludesOfAll,
      Rule.preludes_mapSelectors f rule, Rule.preludesOfAll_mapSelectorsAll f rest]

end

namespace Sheet

/-- All selectors of a sheet: those of its style rules and those of its groups. -/
def selectors (sheet : Sheet) : List Selector :=
  sheet.selectorLists.flatten ++ Rule.preludesOfAll sheet.rules

/-- A class stands somewhere in a sheet, at any depth. -/
def HasClass (sheet : Sheet) (name : String) : Prop :=
  ∃ selector ∈ sheet.selectors, selector.HasClass name

end Sheet

/-! ## What the split keeps -/

section

variable {rest rules : List Rule} {selector : Selector}

/-- The selectors of a sheet are those of its first rule, in lists and in headers, and those of the
rest. -/
theorem mem_selectors_cons (rule : Rule) :
    selector ∈ Sheet.selectors ⟨rule :: rest⟩ ↔
      (selector ∈ rule.selectorLists.flatten ∨ selector ∈ rule.preludes) ∨
        selector ∈ Sheet.selectors ⟨rest⟩ := by
  simp only [Sheet.selectors, Sheet.selectorLists, Rule.selectorListsOfAll, Rule.preludesOfAll,
    List.flatten_append, List.mem_append]
  exact or_or_or_comm

/-- A selector of the sheet stands in the list of some rule or in the header of some group. -/
theorem mem_selectors_iff (rules : List Rule) : selector ∈ Sheet.selectors ⟨rules⟩ ↔
    selector ∈ (Rule.selectorListsOfAll rules).flatten ∨ selector ∈ Rule.preludesOfAll rules :=
  List.mem_append

/-- The step for a style rule: its own list, and the rules nested in it. -/
theorem mem_selectors_style {selectors : List Selector} {block : Block} :
    selector ∈ Sheet.selectors ⟨.style selectors block rules :: rest⟩ ↔
      selector ∈ selectors ∨ selector ∈ Sheet.selectors ⟨rules⟩ ∨
        selector ∈ Sheet.selectors ⟨rest⟩ := by
  rw [mem_selectors_cons, mem_selectors_iff rules, Rule.selectorLists, Rule.preludes,
    List.flatten_cons, List.mem_append]
  simp only [or_assoc]

/-- The step for a group: its header, and the rules it holds. -/
theorem mem_selectors_group {header : Header} :
    selector ∈ Sheet.selectors ⟨.group header rules :: rest⟩ ↔
      selector ∈ header.selectors ∨ selector ∈ Sheet.selectors ⟨rules⟩ ∨
        selector ∈ Sheet.selectors ⟨rest⟩ := by
  rw [mem_selectors_cons, mem_selectors_iff rules, Rule.selectorLists, Rule.preludes,
    List.mem_append, or_left_comm]
  simp only [or_assoc]

end

/-- Rules that are split have the selectors that they had. -/
theorem Rule.Splits.mem_selectors {before after : List Rule} (splits : Rule.Splits before after)
    (selector : Selector) :
    selector ∈ Sheet.selectors ⟨after⟩ ↔ selector ∈ Sheet.selectors ⟨before⟩ := by
  induction splits with
  | nil => rfl
  | keep rule _ ih => rw [mem_selectors_cons, mem_selectors_cons, ih]
  | inside header _ _ innerIh ih => rw [mem_selectors_group, mem_selectors_group, innerIh, ih]
  | parts perm _ _ _ _ _ _ _ _ _ ih =>
    rw [mem_selectors_style, mem_selectors_style, mem_selectors_style, ih, ← perm.mem_iff,
      List.mem_append]
    -- The rules inside stand in both parts.
    grind

end StyleGraph.Css

namespace StyleGraph.Stable

open Css

/-! ## Sheets with stable variants -/

/-- A sheet with stable variants, as it is written where names are local, but for making it
short. -/
def Scheme.stabilise (scheme : Scheme) (sheet : Sheet) : Sheet :=
  ⟨Rule.splitComposesAll (Pipeline.run [Transform.ofScheme scheme] sheet).rules⟩

variable {scheme : Scheme} {sheet : Sheet} {name : String}

/-- The selectors of a sheet with stable variants are those of its style rules, with variants, and
those of its groups. -/
theorem mem_selectors_stabilise {selector : Selector} :
    selector ∈ (scheme.stabilise sheet).selectors ↔
      (∃ selectors ∈ sheet.selectorLists,
        selector ∈ Pipeline.apply [Transform.ofScheme scheme] selectors) ∨
      selector ∈ Rule.preludesOfAll sheet.rules := by
  have kept := (Rule.splits_splitComposesAll
    (Pipeline.run [Transform.ofScheme scheme] sheet).rules).mem_selectors selector
  have preludes : Rule.preludesOfAll (Pipeline.run [Transform.ofScheme scheme] sheet).rules =
      Rule.preludesOfAll sheet.rules := Rule.preludesOfAll_mapSelectorsAll _ sheet.rules
  have lists : Sheet.selectorLists ⟨(Pipeline.run [Transform.ofScheme scheme] sheet).rules⟩ =
      sheet.selectorLists.map (Pipeline.apply [Transform.ofScheme scheme]) :=
    Sheet.selectorLists_mapSelectors _ sheet
  rw [Scheme.stabilise, kept, Sheet.selectors, List.mem_append, preludes, lists]
  simp only [List.mem_flatten, List.mem_map, exists_exists_and_eq_and]

/-- **Which classes a sheet with stable variants has**: those that the sheet has, and the stable
classes of those that are replaced. -/
theorem hasClass_stabilise_iff :
    (scheme.stabilise sheet).HasClass name ↔ sheet.HasClass name ∨
      ∃ other, scheme.ReplacedIn sheet other ∧ className other scheme.space = name := by
  have everywhere : ShowsVariants fun _ => true := ⟨fun _ _ => rfl, fun _ => rfl⟩
  have lists (selectors : List Selector) :
      (∃ selector ∈ Pipeline.apply [Transform.ofScheme scheme] selectors,
          selector.HasClass name) ↔
        ∃ selector ∈ selectors, selector.HasClass name ∨
          ∃ other, scheme.Replaced selector other ∧ className other scheme.space = name :=
    exists_hasClassAt_apply_iff everywhere
  constructor
  · rintro ⟨selector, mem, classed⟩
    rcases mem_selectors_stabilise.mp mem with ⟨selectors, within, applied⟩ | prelude
    · obtain ⟨before, listed, found | ⟨other, replaced, same⟩⟩ :=
        (lists selectors).mp ⟨selector, applied, classed⟩
      · exact .inl ⟨before, List.mem_append_left _
          (List.mem_flatten.mpr ⟨selectors, within, listed⟩), found⟩
      · exact .inr ⟨other, ⟨selectors, within, before, listed, replaced⟩, same⟩
    · exact .inl ⟨selector, List.mem_append_right _ prelude, classed⟩
  · rintro (⟨selector, mem, classed⟩ |
      ⟨other, ⟨selectors, within, selector, listed, replaced⟩, same⟩)
    · refine ⟨selector, mem_selectors_stabilise.mpr ?_, classed⟩
      rcases List.mem_append.mp mem with styled | prelude
      · obtain ⟨selectors, within, listed⟩ := List.mem_flatten.mp styled
        exact .inl ⟨selectors, within, mem_apply_ofScheme.mpr (.inl listed)⟩
      · exact .inr prelude
    · obtain ⟨variant, applied, classed⟩ :=
        (lists selectors).mpr ⟨selector, listed, .inr ⟨other, replaced, same⟩⟩
      exact ⟨variant, mem_selectors_stabilise.mpr (.inl ⟨selectors, within, applied⟩), classed⟩

/-- Where names are local, the stable class of a class that is replaced stands in `:global(…)`, so
that it is written as it is. -/
theorem exists_global_of_replaced (wraps : scheme.wrapsGlobal = true)
    (replaced : scheme.ReplacedIn sheet name) :
    ∃ selector ∈ (scheme.stabilise sheet).selectors, ∃ way index,
      selector.at? isEntered way index =
        some (.wrap .global (.ofWritten [.class (className name scheme.space)])) := by
  obtain ⟨selectors, within, selector, listed, ⟨way, index, there⟩, accepted⟩ := replaced
  have changed := (Scheme.changed_iff_exists_at? selector).mpr ⟨way, index, name, there, accepted⟩
  refine ⟨(scheme.rewriteSelector selector).1, mem_selectors_stabilise.mpr (.inl
    ⟨selectors, within, mem_apply_ofScheme.mpr (.inr ⟨selector, listed, changed, rfl⟩)⟩),
    way, index, ?_⟩
  rw [Scheme.at?_rewriteSelector, there, Option.map_some, Scheme.rewriteComponent_class,
    if_pos accepted, Scheme.component, if_pos wraps]

end StyleGraph.Stable

namespace StyleGraph

open Css Stable

variable {css : String} {options : FinishOptions} {stable : AutoStable} {boost : Option Boost}
  {finished : Finished} {scheme : Scheme}

/-! ## Class maps -/

/-- A class map names the stable class of each exported name that is accepted. -/
theorem named_in_classMap {exports : List WrittenExport} {item : WrittenExport}
    (mem : item ∈ exports) {name : String} (stable : scheme.stableFor? item.token = some name) :
    (item.token, value (some scheme) exports item) ∈ classMap (some scheme) exports ∧
      name ∈ namesOf (some scheme) exports item := by
  refine ⟨(mem_classMap _ _).mpr ⟨item, mem, rfl⟩, (mem_namesOf _ _).mpr (.inl ?_)⟩
  rw [ownNames, Option.bind_some, stable]
  exact List.mem_cons_of_mem _ (List.mem_singleton_self name)

/-- A transform at the end of a pipeline is applied to what the others make of a sheet. -/
theorem run_append_singleton (pipeline : Pipeline) (last : Transform) (sheet : Sheet) :
    Pipeline.run (pipeline ++ [last]) sheet = Pipeline.run [last] (pipeline.run sheet) := by
  rw [Pipeline.run, Pipeline.run, Pipeline.run, Sheet.mapSelectors_mapSelectors]
  refine congrArg (Sheet.mapSelectors · sheet) (funext fun selectors => ?_)
  rw [Pipeline.apply, List.foldl_append]
  rfl

/-- How a sheet is finished where names are local and there are stable variants. The class map is
made from the names that are written, so after boosting, adding variants and minifying. -/
theorem exists_of_finish? (modules : options.modules = true)
    (asked : Scheme.ofOption? stable = some scheme)
    (done : finish? css options stable boost = some finished) :
    ∃ read, Sheet.ofText? true css = some read ∧
      let wrapping : Scheme := { scheme with wrapsGlobal := true }
      let stabilised := wrapping.stabilise
        (Pipeline.run (options.transforms ++ (boost.map Transform.ofBoost).toList) read)
      let written := if options.minify then stabilised.minify else stabilised
      finished.modules = some (classMap (some wrapping) (written.exports.map writtenExport)) := by
  simp only [finish?, modules, asked, Option.map_some, Option.toList_some, if_true,
    Option.bind_eq_bind, Option.bind_eq_some_iff] at done
  obtain ⟨read, parsed, text, _, made⟩ := done
  cases made
  refine ⟨read, parsed, ?_⟩
  simp only [run_append_singleton]
  rfl

/-- **Which stable classes of a class map are in the sheet.** Where names are local and there are
stable variants, the map names the stable class of each exported name that is accepted. The sheet
with stable variants has this class exactly if the sheet had it before, or it is the stable class of
a class that gets a variant; and if the exported name is such a class itself, the stable class
stands in `:global(…)`, where it is written as it is. -/
theorem finishes_promised (modules : options.modules = true)
    (asked : Scheme.ofOption? stable = some scheme)
    (done : finish? css options stable boost = some finished) :
    ∃ read, Sheet.ofText? true css = some read ∧
      let wrapping : Scheme := { scheme with wrapsGlobal := true }
      let before := Pipeline.run (options.transforms ++ (boost.map Transform.ofBoost).toList) read
      let stabilised := wrapping.stabilise before
      let written := if options.minify then stabilised.minify else stabilised
      let exports := written.exports.map writtenExport
      finished.modules = some (classMap (some wrapping) exports) ∧
      ∀ item ∈ exports, ∀ name, wrapping.stableFor? item.token = some name →
        ((item.token, value (some wrapping) exports item) ∈ classMap (some wrapping) exports ∧
          name ∈ namesOf (some wrapping) exports item) ∧
        (stabilised.HasClass name ↔ before.HasClass name ∨
          ∃ other, wrapping.ReplacedIn before other ∧ className other wrapping.space = name) ∧
        (wrapping.ReplacedIn before item.token → stabilised.HasClass name ∧
          ∃ selector ∈ stabilised.selectors, ∃ way index, selector.at? isEntered way index =
            some (.wrap .global (.ofWritten [.class name]))) := by
  obtain ⟨read, parsed, mapped⟩ := exists_of_finish? modules asked done
  refine ⟨read, parsed, mapped, fun item mem name accepted => ?_⟩
  refine ⟨named_in_classMap mem accepted, hasClass_stabilise_iff, fun replaced => ?_⟩
  have named : className item.token scheme.space = name := by
    rw [Scheme.stableFor?] at accepted
    split at accepted
    next => exact Option.some.inj accepted
    next => cases accepted
  refine ⟨hasClass_stabilise_iff.mpr (.inr ⟨item.token, replaced, named⟩), ?_⟩
  rw [← named]
  exact exists_global_of_replaced rfl replaced

/-- How classes become stable in the default namespace where names are local. -/
def localScheme : Scheme := { Scheme.ofSpace defaultNamespace with wrapsGlobal := true }

/-- A class below a type. -/
def mainCardText : String := "main .card { color: red }"

/-- The stable class of a class that gets a variant is in the map and in the sheet. The name is a
class, so the promise of the general statement is kept for it. -/
theorem finishes_promised_mainCard :
    ∃ finished read,
      finish? mainCardText { modules := true } .enabled none = some finished ∧
      finished.modules = some [("card", "Mum5jG_card knighted-card")] ∧
      Sheet.ofText? true mainCardText = some read ∧
      (localScheme.stabilise read).HasClass "knighted-card" := by
  have found : ((finish? mainCardText { modules := true } .enabled none).any fun finished =>
      finished.modules = some [("card", "Mum5jG_card knighted-card")]) = true := by
    decide +kernel
  obtain ⟨finished, done, mapped⟩ := (Option.any_eq_true _ _).mp found
  have known : ((Sheet.ofText? true mainCardText).any fun read =>
      ⟨"card", "Mum5jG_card", []⟩ ∈ (localScheme.stabilise read).exports.map writtenExport &&
        read.selectorLists.any (Selector.sameAll
          [.mk [.class "card", .combinator .descendant, .type "main"] {}])) = true := by
    decide +kernel
  obtain ⟨read, parsed, -, promised⟩ := finishes_promised rfl rfl done
  rw [parsed, Option.any_some, Bool.and_eq_true, decide_eq_true_iff] at known
  obtain ⟨selectors, within, same⟩ := List.any_eq_true.mp known.2
  obtain rfl := Selector.eq_of_sameAll same
  have accepted : localScheme.stableFor? "card" = some "knighted-card" := by decide +kernel
  have replaced : localScheme.ReplacedIn read "card" :=
    ⟨_, within, _, .head _, ⟨[], 0, rfl⟩, by decide +kernel⟩
  have kept : ∀ item ∈ (localScheme.stabilise (Pipeline.run [] read)).exports.map writtenExport,
      ∀ name, localScheme.stableFor? item.token = some name →
        localScheme.ReplacedIn (Pipeline.run [] read) item.token →
          (localScheme.stabilise (Pipeline.run [] read)).HasClass name :=
    fun item mem name accepted replaced => ((promised item mem name accepted).2.2 replaced).1
  have unchanged : Pipeline.run [] read = read := Sheet.mapSelectors_id read
  rw [unchanged] at kept
  exact ⟨finished, read, done, of_decide_eq_true mapped, parsed,
    kept _ known.1 _ accepted replaced⟩

/-- An id. -/
def heroText : String := "#hero { color: red }"

/-- The map names a stable class for an id, but no selector of the sheet has it. An id is exported
like a class, and the map gives every exported name its stable class, but only classes get variants.
-/
theorem breaks_promise_hero :
    ∃ finished read,
      finish? heroText { modules := true } .enabled none = some finished ∧
      finished.modules = some [("hero", "Mum5jG_hero knighted-hero")] ∧
      Sheet.ofText? true heroText = some read ∧
      ¬ (localScheme.stabilise read).HasClass "knighted-hero" := by
  have found : ((finish? heroText { modules := true } .enabled none).any fun finished =>
      finished.modules = some [("hero", "Mum5jG_hero knighted-hero")]) = true := by
    decide +kernel
  have known : ((Sheet.ofText? true heroText).any fun read =>
      Selector.sameAll (localScheme.stabilise read).selectors [.mk [.id "hero"] {}]) = true := by
    decide +kernel
  obtain ⟨finished, done, mapped⟩ := (Option.any_eq_true _ _).mp found
  obtain ⟨read, parsed, same⟩ := (Option.any_eq_true _ _).mp known
  refine ⟨finished, read, done, of_decide_eq_true mapped, parsed, ?_⟩
  rintro ⟨selector, mem, classed⟩
  rw [Selector.eq_of_sameAll same, List.mem_singleton] at mem
  subst mem
  rcases Selector.hasClass_iff.mp classed with listed | ⟨component, listed, inner, inside, -⟩
  · cases List.mem_singleton.mp listed
  · cases List.mem_singleton.mp listed
    cases inside

end StyleGraph
