import Mathlib.Data.List.Induction
import Mathlib.Data.List.Perm.Basic
import StyleGraph.Proofs.Stable.Rewrite

/-!
# What a pipeline does to a selector list

A transform that appends keeps the list and puts something behind it (`Appends`): each rewritten
form that the list does not have, once, in the order of the selectors that they come from. A
transform that replaces changes the list place by place (`Replaces`). A pipeline takes such steps
one after the other (`Pipeline.Steps`), so what one transform appends, the next one rewrites too.

## What is proved

`Pipeline.apply_eq_iff_steps`: applying a pipeline to a list gives just that list to which the steps
of the pipeline lead. The steps are told without the loop over the list: what is appended is fixed
by its members and their order alone (`Appends.unique`).
-/

set_option autoImplicit false

namespace StyleGraph.Stable

open Css

variable {rewrite : Selector → Option Selector}

/-! ## Appending -/

/-- The first of the originals that are rewritten to one selector stands before all those that are
rewritten to another one. -/
def Earlier (rewrite : Selector → Option Selector) (originals : List Selector)
    (one other : Selector) : Prop :=
  ∃ ahead original behind, originals = ahead ++ original :: behind ∧
    rewrite original = some one ∧ ∀ before ∈ ahead ++ [original], rewrite before ≠ some other

/-- What is put behind a list when originals are rewritten. -/
structure Appends (rewrite : Selector → Option Selector)
    (selectors originals added : List Selector) : Prop where
  /-- It is the rewritten forms that the list does not have. -/
  mem_iff : ∀ selector, selector ∈ added ↔
    selector ∉ selectors ∧ ∃ original ∈ originals, rewrite original = some selector
  /-- Each of them is put there once. -/
  nodup : added.Nodup
  /-- They stand in the order of the originals that they come from. -/
  ordered : added.Pairwise (Earlier rewrite originals)

/-- What came earlier stays earlier when more selectors follow. -/
theorem Earlier.append {originals : List Selector} {one other : Selector}
    (earlier : Earlier rewrite originals one other) (more : List Selector) :
    Earlier rewrite (originals ++ more) one other := by
  obtain ⟨ahead, original, behind, rfl, rewritten, apart⟩ := earlier
  exact ⟨ahead, original, behind ++ more, by simp, rewritten, apart⟩

/-- What is rewritten to one selector only now comes after all that was rewritten before. -/
theorem Earlier.of_mem {originals : List Selector} {one other : Selector}
    (mem : ∃ original ∈ originals, rewrite original = some one)
    (fresh : ∀ original ∈ originals, rewrite original ≠ some other) :
    Earlier rewrite originals one other := by
  obtain ⟨original, listed, rewritten⟩ := mem
  obtain ⟨ahead, behind, rfl⟩ := List.append_of_mem listed
  refine ⟨ahead, original, behind, rfl, rewritten, fun before mem => fresh before ?_⟩
  rw [List.append_cons]
  exact List.mem_append_left _ mem

/-- Of two selectors one is the earlier one only. -/
theorem Earlier.asymm {originals : List Selector} {one other : Selector}
    (earlier : Earlier rewrite originals one other) :
    ¬ Earlier rewrite originals other one := by
  obtain ⟨ahead, original, behind, rfl, rewritten, apart⟩ := earlier
  rintro ⟨ahead', original', behind', same, rewritten', apart'⟩
  -- Each origin would have to stand ahead of the other one.
  rcases List.append_eq_append_iff.mp same with ⟨between, rfl, rest⟩ | ⟨between, rfl, rest⟩
  · have first : original ∈ (ahead ++ between) ++ [original'] := by
      cases between with
      | nil => simp_all
      | cons next between => simp_all
    exact apart' original first rewritten
  · have first : original' ∈ (ahead' ++ between) ++ [original] := by
      cases between with
      | nil => simp_all
      | cons next between => simp_all
    exact apart original' first rewritten'

namespace Appends

variable {selectors originals added : List Selector}

/-- Nothing to append appends nothing. -/
theorem nil : Appends rewrite selectors [] [] where
  mem_iff selector := by simp
  nodup := .nil
  ordered := .nil

/-- One more original is rewritten to something that is there already, or is not rewritten. So the
additions stay as they are. -/
theorem pass (appends : Appends rewrite selectors originals added) {original : Selector}
    (known : ∀ selector, rewrite original = some selector → selector ∈ selectors ++ added) :
    Appends rewrite selectors (originals ++ [original]) added where
  mem_iff selector := by
    rw [appends.mem_iff]
    refine and_congr_right fun absent => ⟨fun ⟨before, mem, rewritten⟩ =>
      ⟨before, List.mem_append_left _ mem, rewritten⟩, fun ⟨before, mem, rewritten⟩ => ?_⟩
    rcases List.mem_append.mp mem with mem | last
    · exact ⟨before, mem, rewritten⟩
    · rw [List.mem_singleton.mp last] at rewritten
      have there := (List.mem_append.mp (known selector rewritten)).resolve_left absent
      exact ((appends.mem_iff selector).mp there).2
  nodup := appends.nodup
  ordered := appends.ordered.imp fun earlier => earlier.append _

/-- One more original is rewritten to something new. A selector that is there already adds nothing,
so this is the only step that makes the list longer. -/
theorem push (appends : Appends rewrite selectors originals added) {original selector : Selector}
    (rewritten : rewrite original = some selector) (fresh : selector ∉ selectors ++ added) :
    Appends rewrite selectors (originals ++ [original]) (added ++ [selector]) := by
  obtain ⟨absent, unlisted⟩ := not_or.mp (mt List.mem_append.mpr fresh)
  have unmade : ∀ before ∈ originals, rewrite before ≠ some selector := fun before mem made =>
    unlisted ((appends.mem_iff selector).mpr ⟨absent, before, mem, made⟩)
  refine ⟨fun other => ?_, ?_, ?_⟩
  · rw [List.mem_append, appends.mem_iff, List.mem_singleton]
    constructor
    · rintro (⟨absent, before, mem, made⟩ | rfl)
      · exact ⟨absent, before, List.mem_append_left _ mem, made⟩
      · exact ⟨absent, original, by simp, rewritten⟩
    · rintro ⟨absent, before, mem, made⟩
      rcases List.mem_append.mp mem with mem | last
      · exact .inl ⟨absent, before, mem, made⟩
      · rw [List.mem_singleton.mp last, rewritten] at made
        exact .inr (Option.some.inj made).symm
  · refine List.nodup_append.mpr ⟨appends.nodup, List.pairwise_singleton _ _, ?_⟩
    intro before mem other last
    rw [List.mem_singleton.mp last]
    exact fun same => unlisted (same ▸ mem)
  · refine List.pairwise_append.mpr ⟨appends.ordered.imp fun earlier => earlier.append _,
      List.pairwise_singleton _ _, fun before mem other last => ?_⟩
    rw [List.mem_singleton.mp last]
    exact (Earlier.of_mem ((appends.mem_iff before).mp mem).2 unmade).append _

/-- What is appended is fixed by the list and the originals. -/
theorem unique {others : List Selector} (appends : Appends rewrite selectors originals added)
    (also : Appends rewrite selectors originals others) : added = others := by
  have perm : added.Perm others :=
    (List.perm_ext_iff_of_nodup appends.nodup also.nodup).mpr fun selector => by
      rw [appends.mem_iff, also.mem_iff]
  exact perm.eq_of_pairwise
    (fun _ _ _ _ earlier later => absurd later earlier.asymm) appends.ordered also.ordered

end Appends

/-- A new selector goes to the end. -/
theorem Transform.insert_of_not_mem {selectors : List Selector} {selector : Selector}
    (fresh : selector ∉ selectors) :
    Transform.insert selectors selector = selectors ++ [selector] := by
  rw [Transform.insert, if_neg]
  intro known
  obtain ⟨other, mem, same⟩ := List.any_eq_true.mp known
  exact fresh (Selector.eq_of_same same ▸ mem)

/-- Inserting the rewritten forms of originals appends to the list. The induction is on the
originals from the last one, so that what was inserted before is known. -/
theorem Transform.exists_appends (rewrite : Selector → Option Selector)
    (selectors originals : List Selector) :
    ∃ added, Appends rewrite selectors originals added ∧
      (originals.filterMap rewrite).foldl Transform.insert selectors = selectors ++ added := by
  induction originals using List.reverseRecOn with
  | nil => exact ⟨[], .nil, by simp⟩
  | append_singleton originals original ih =>
    obtain ⟨added, appends, inserted⟩ := ih
    rw [List.filterMap_append, List.foldl_append, inserted]
    cases rewritten : rewrite original with
    | none =>
      exact ⟨added, appends.pass fun _ found => by simp [rewritten] at found, by simp [rewritten]⟩
    | some selector =>
      by_cases there : selector ∈ selectors ++ added
      · refine ⟨added, appends.pass fun other found => ?_, ?_⟩
        · rw [rewritten] at found
          exact Option.some.inj found ▸ there
        · simp [rewritten, Transform.insert_of_mem there]
      · exact ⟨added ++ [selector], appends.push rewritten there, by
          simp [rewritten, Transform.insert_of_not_mem there]⟩

/-! ## Replacing -/

/-- A list after each of its selectors was replaced by its rewritten form, where it has one. -/
def Replaces (rewrite : Selector → Option Selector) : List Selector → List Selector → Prop :=
  List.Forall₂ fun original replaced =>
    rewrite original = some replaced ∨ rewrite original = none ∧ replaced = original

/-- The relation has one outcome, the list rewritten in place. -/
theorem replaces_iff {selectors replaced : List Selector} :
    Replaces rewrite selectors replaced ↔
      (selectors.map fun selector => (rewrite selector).getD selector) = replaced := by
  have place (original changed : Selector) :
      (rewrite original = some changed ∨ rewrite original = none ∧ changed = original) ↔
        (rewrite original).getD original = changed := by
    cases rewrite original with
    | none => simp [eq_comm]
    | some selector => simp
  unfold Replaces
  simp only [place]
  rw [← List.forall₂_map_left_iff, List.forall₂_eq_eq_eq]

/-! ## Pipelines -/

/-- The steps of a pipeline from one list to another. -/
inductive Pipeline.Steps : Pipeline → List Selector → List Selector → Prop
  | done {selectors : List Selector} : Steps [] selectors selectors
  | append {transform : Transform} {rest : Pipeline} {selectors added result : List Selector} :
    transform.mode = .append → Appends transform.rewrite selectors selectors added →
      Steps rest (selectors ++ added) result → Steps (transform :: rest) selectors result
  | replace {transform : Transform} {rest : Pipeline} {selectors replaced result : List Selector} :
    transform.mode = .replace → Replaces transform.rewrite selectors replaced →
      Steps rest replaced result → Steps (transform :: rest) selectors result

/-- The transform that appends collects the rewritten forms first and inserts them after all the
originals. -/
theorem Transform.apply_append {transform : Transform} (mode : transform.mode = .append)
    (selectors : List Selector) : transform.apply selectors =
      (selectors.filterMap transform.rewrite).foldl Transform.insert selectors := by
  simp only [Transform.apply, mode]

/-- The one that replaces keeps each selector it does not change. -/
theorem Transform.apply_replace {transform : Transform} (mode : transform.mode = .replace)
    (selectors : List Selector) : transform.apply selectors =
      selectors.map fun selector => (transform.rewrite selector).getD selector := by
  simp only [Transform.apply, mode]

namespace Pipeline

/-- A pipeline takes its steps. By induction on the pipeline: each transform takes the step of its
own mode. -/
theorem steps_apply (pipeline : Pipeline) (selectors : List Selector) :
    pipeline.Steps selectors (pipeline.apply selectors) := by
  induction pipeline generalizing selectors with
  | nil => exact .done
  | cons transform rest ih =>
    have onward := ih (transform.apply selectors)
    cases mode : transform.mode with
    | append =>
      obtain ⟨added, appends, inserted⟩ :=
        Transform.exists_appends transform.rewrite selectors selectors
      rw [Transform.apply_append mode, inserted] at onward
      rw [apply, List.foldl_cons, Transform.apply_append mode, inserted]
      exact .append mode appends onward
    | replace =>
      exact .replace mode (replaces_iff.mpr (Transform.apply_replace mode selectors).symm) onward

/-- The steps of a pipeline lead to one list only. -/
theorem Steps.unique {pipeline : Pipeline} {selectors result other : List Selector}
    (steps : pipeline.Steps selectors result) (also : pipeline.Steps selectors other) :
    result = other := by
  induction steps generalizing other with
  | done => cases also; rfl
  | append mode appends _ ih =>
    cases also with
    | append _ more rest => exact ih (appends.unique more ▸ rest)
    | replace replaces _ _ => rw [mode] at replaces; cases replaces
  | replace mode replaces _ ih =>
    cases also with
    | append appends _ _ => rw [mode] at appends; cases appends
    | replace _ more rest =>
      exact ih (((replaces_iff.mp replaces).symm.trans (replaces_iff.mp more)) ▸ rest)

/-- **A pipeline is the composition of its steps.** Applying it to a list of selectors gives the
list to which its steps lead: a transform that appends leaves what is there in front, and puts the
rewritten forms behind it that are new, once and in the order of their originals; one that replaces
keeps every place; and each transform has the list to work on that those before it have left. -/
theorem apply_eq_iff_steps (pipeline : Pipeline) (selectors result : List Selector) :
    pipeline.apply selectors = result ↔ pipeline.Steps selectors result :=
  ⟨fun applied => applied ▸ steps_apply pipeline selectors,
    fun steps => (steps_apply pipeline selectors).unique steps⟩

end Pipeline

end StyleGraph.Stable
