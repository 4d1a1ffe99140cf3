import Mathlib.Data.List.TakeWhile
import StyleGraph.Proofs.Path.Names

/-!
# File names and extensions

Of a clean absolute path the file name is the last of its names (`fileName?_rooted`), and an
extension is what stands behind the last dot of that name, if something stands before the dot
(`extensionOfName?_eq_some_iff`). So a path with an extension ends in a dot and that extension
(`exists_stem_of_extension?`).
-/

set_option autoImplicit false

namespace StyleGraph.Path

variable {texts : List String}

/-- The parts of a path that is written from names: the root, then the names. No name is an idle
piece or a step back, so each of them is a part of its own. -/
theorem parts_rooted (named : ∀ text ∈ texts, IsName text) :
    parts (rooted texts) = .root :: texts.map .name := by
  have lead : partOf? [] = none := rfl
  have kept : ∀ names : List String, (∀ text ∈ names, IsName text) →
      (names.map String.toList).filterMap partOf? = names.map .name := by
    intro names named
    induction names with
    | nil => rfl
    | cons text names ih =>
      rw [List.map_cons, List.filterMap_cons, (named text List.mem_cons_self).2,
        ih fun other mem => named other (List.mem_cons_of_mem _ mem), List.map_cons]
  rw [parts_of_isAbsolute (isAbsolute_rooted texts), toList_rooted]
  simp only [Text.cutAll, if_true, List.filterMap_cons, lead]
  by_cases empty : texts = []
  · subst empty
    rfl
  · rw [cutAll_rooted named empty, kept texts named]

/-- The file name of a path that is written from names is the last of them. -/
theorem fileName?_rooted (named : ∀ text ∈ texts, IsName text) :
    fileName? (rooted texts) = texts.getLast? := by
  rw [fileName?, parts_rooted named]
  cases texts using List.reverseRecOn with
  | nil => rfl
  | append_singleton before text _ =>
    rw [List.map_append, List.map_cons, List.map_nil, ← List.cons_append, List.getLast?_concat,
      List.getLast?_concat]

/-- A name is cut at its last dot, unless nothing stands before it. The search goes from the end,
where the characters behind the last dot have none themselves. -/
theorem extensionOfName?_of_append {name : String} {before after : List Char}
    (written : name.toList = before ++ '.' :: after) (dotless : '.' ∉ after) :
    extensionOfName? name = if before = [] then none else some (String.ofList after) := by
  have turned : name.toList.reverse = after.reverse ++ '.' :: before.reverse := by
    rw [written]
    simp
  have passed : ∀ c ∈ after.reverse, (c != '.') = true := by
    intro c mem
    exact bne_iff_ne.mpr fun same => dotless (same ▸ List.mem_reverse.mp mem)
  have tail : (after.reverse ++ '.' :: before.reverse).takeWhile (· != '.') = after.reverse := by
    rw [List.takeWhile_append_of_pos passed]
    simp
  have rest : (after.reverse ++ '.' :: before.reverse).dropWhile (· != '.') =
      '.' :: before.reverse := by
    rw [List.dropWhile_append_of_pos passed]
    simp
  unfold extensionOfName?
  rw [turned]
  split
  next empty => simp at empty
  next =>
    rw [tail, rest]
    simp only [List.reverse_reverse]
    cases before using List.reverseRecOn with
    | nil => rfl
    | append_singleton before c _ => simp

/-- A name without a dot has no extension. -/
theorem extensionOfName?_of_not_mem {name : String} (dotless : '.' ∉ name.toList) :
    extensionOfName? name = none := by
  have passed : name.toList.reverse.dropWhile (· != '.') = [] := by
    refine List.dropWhile_eq_nil_iff.mpr fun c mem => ?_
    exact bne_iff_ne.mpr fun same => dotless (same ▸ List.mem_reverse.mp mem)
  unfold extensionOfName?
  split
  · rfl
  · rw [passed]

/-- **An extension stands behind the last dot of a name**, which does not begin with that dot. A
name with its only dot in front, such as that of a hidden file, has none. -/
theorem extensionOfName?_eq_some_iff {name extension : String} :
    extensionOfName? name = some extension ↔
      ∃ stem, stem ≠ [] ∧ name.toList = stem ++ '.' :: extension.toList ∧
        '.' ∉ extension.toList := by
  constructor
  · intro found
    by_cases dotted : '.' ∈ name.toList
    · obtain ⟨before, after, written, dotless⟩ := Text.exists_append_cons_of_mem dotted
      rw [extensionOfName?_of_append written dotless] at found
      split at found
      · cases found
      next nonempty =>
        cases found
        rw [String.toList_ofList]
        exact ⟨before, nonempty, written, dotless⟩
    · rw [extensionOfName?_of_not_mem dotted] at found
      cases found
  · rintro ⟨stem, nonempty, written, dotless⟩
    rw [extensionOfName?_of_append written dotless, if_neg nonempty, String.ofList_toList]

/-- The extension of a path that is written from names. -/
theorem extension?_rooted (named : ∀ text ∈ texts, IsName text) :
    extension? (rooted texts) = texts.getLast?.bind extensionOfName? := by
  rw [extension?, fileName?_rooted named]
  rfl

/-- **A path with an extension ends in it**, behind a dot and inside the last name. So the extension
can be taken off the path as a text, without a look at its parts. -/
theorem exists_stem_of_extension? {extension : String} (named : ∀ text ∈ texts, IsName text)
    (own : extension? (rooted texts) = some extension) :
    ∃ stem, (rooted texts).toList = stem ++ '.' :: extension.toList ∧
      '/' ∉ extension.toList := by
  rw [extension?_rooted named] at own
  obtain ⟨last, isLast, ends⟩ := Option.bind_eq_some_iff.mp own
  obtain ⟨before, rfl⟩ := List.getLast?_eq_some_iff.mp isLast
  obtain ⟨stem, -, written, -⟩ := extensionOfName?_eq_some_iff.mp ends
  obtain ⟨lead, leads⟩ := exists_lead_rooted before
  have whole := (named last (by simp)).1
  rw [written] at whole
  refine ⟨lead ++ '/' :: stem, ?_, fun mem => whole (by simp [mem])⟩
  rw [leads, written]
  simp

end StyleGraph.Path
