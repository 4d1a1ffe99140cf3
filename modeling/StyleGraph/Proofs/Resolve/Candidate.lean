import StyleGraph.Proofs.FileTree
import StyleGraph.Proofs.Path.Extension
import StyleGraph.Resolve.Resolver

/-!
# Which file a candidate is taken for

A path that is a file need not be taken for that file: other paths may be tried before it, its
rivals. `tryCandidate?_of_isFile` says which file is taken, and with it that the path itself is taken
just when none of its rivals is a file. A path has no rivals when its extension is in effect and
does not stand for others (`rivals_of_listed`).
-/

set_option autoImplicit false

namespace StyleGraph.Resolve

open StyleGraph.Path (IsName rooted)

variable {tree : FileTree} {extensions : List String} {path : String}

/-- The paths that are tried before a path is taken as it is. -/
def rivals (extensions : List String) (path : String) : List String :=
  (namedCandidates extensions path).takeWhile (· != path)

/-- A path is no rival of its own. -/
theorem ne_of_mem_rivals {rival : String} (mem : rival ∈ rivals extensions path) :
    rival ≠ path := by
  have passed := List.all_takeWhile (p := (· != path)) (l := namedCandidates extensions path)
  simpa using List.all_eq_true.mp passed rival mem

/-- A rival is tried. -/
theorem mem_namedCandidates_of_mem_rivals {rival : String} (mem : rival ∈ rivals extensions path) :
    rival ∈ namedCandidates extensions path :=
  List.takeWhile_subset _ mem

/-- Of some paths and a file behind them the first file comes before that file, or is it. So a file
that is tried last is its own candidate, and those tried before it are its rivals. -/
theorem firstFile?_append_singleton (file : tree.isFile path = true) (paths : List String) :
    firstFile? tree (paths ++ [path]) =
      some ((firstFile? tree (paths.takeWhile (· != path))).getD path) := by
  unfold firstFile?
  induction paths with
  | nil => simp [file]
  | cons first paths ih =>
    by_cases same : first = path
    · simp [same, file]
    · rw [List.takeWhile_cons_of_pos (by simpa using same), List.cons_append, List.find?_cons,
        List.find?_cons]
      cases found : tree.isFile first with
      | true => rfl
      | false => exact ih

/-- No path is both a file and a directory. -/
theorem isDirectory_eq_false_of_isFile (file : tree.isFile path = true) :
    tree.isDirectory path = false := by
  obtain ⟨content, found⟩ := FileTree.exists_lookup_of_isFile file
  unfold FileTree.isDirectory
  rw [found]

/-- **A path that is a file is taken for its first rival that is a file, else for itself.** -/
theorem tryCandidate?_of_isFile (file : tree.isFile path = true) :
    tryCandidate? tree extensions path =
      some ((firstFile? tree (rivals extensions path)).getD path) := by
  rw [rivals, ← firstFile?_append_singleton file]
  unfold tryCandidate?
  rw [isDirectory_eq_false_of_isFile file]
  unfold firstFile?
  rw [List.find?_append]
  cases List.find? tree.isFile (namedCandidates extensions path) <;> rfl

/-- A path whose extension is in effect and stands for no others has no rivals. -/
theorem rivals_of_listed {extension : String} (own : Path.extension? path = some extension)
    (plain : ∀ entry ∈ extensionAliases, entry.1 ≠ "." ++ extension)
    (listed : "." ++ extension ∈ extensions) : rivals extensions path = [] := by
  have unaliased : aliasesOf? extensionAliases path = none := by
    have missing : (extensionAliases.find? fun entry => entry.1 = "." ++ extension) = none :=
      List.find?_eq_none.mpr fun entry mem => by simpa using plain entry mem
    simp only [aliasesOf?, own, Option.bind_eq_bind, Option.bind_some, missing, Option.bind_none]
  have exact : namedCandidates extensions path = path :: extensions.map (path ++ ·) := by
    simp only [namedCandidates, unaliased, own, List.contains_iff_mem, listed, if_true,
      List.singleton_append]
  rw [rivals, exact, List.takeWhile_cons_of_neg (by simp)]

/-- A path is taken for the first file among those tried by its name. -/
theorem tryCandidate?_of_firstFile? {target : String}
    (first : firstFile? tree (namedCandidates extensions path) = some target) :
    tryCandidate? tree extensions path = some target := by
  unfold tryCandidate?
  rw [first]

/-- An index file has a longer path than its directory. So a rival that is an index file is another
path. -/
theorem length_lt_of_mem_indexCandidates {target : String}
    (mem : target ∈ indexCandidates extensions path) : path.length + 5 ≤ target.length := by
  obtain ⟨extension, -, rfl⟩ := List.mem_map.mp mem
  have relative : Path.isAbsolute ("index" ++ extension) = false := by
    have chars : ("index" ++ extension).toList = 'i' :: ("ndex".toList ++ extension.toList) := by
      simp
    simp [Path.isAbsolute, chars]
  have index : "index".length = 5 := by decide
  unfold Path.join
  rw [if_neg (by simp [relative])]
  split
  next empty =>
    rw [String.isEmpty_iff.mp empty]
    simp [String.length_append, index]
  · split <;> (simp only [String.length_append, index]; omega)

/-- What a path is taken for is a file, and was tried: by its name, as an index file or as it is.
The three kinds are tried in this order, and each result was asked for as a file before it was
taken. -/
theorem mem_of_tryCandidate? {target : String}
    (taken : tryCandidate? tree extensions path = some target) :
    tree.isFile target = true ∧ (target ∈ namedCandidates extensions path ∨
      target ∈ indexCandidates extensions path ∨ target = path) := by
  have tried : ∀ {paths}, firstFile? tree paths = some target →
      tree.isFile target = true ∧ target ∈ paths := fun found =>
    ⟨List.find?_some found, List.mem_of_find?_eq_some found⟩
  unfold tryCandidate? at taken
  cases first : firstFile? tree (namedCandidates extensions path) with
  | some found =>
    rw [first] at taken
    cases taken
    exact (tried first).imp id .inl
  | none =>
    rw [first] at taken
    simp only at taken
    split at taken
    next found isFound =>
      cases taken
      split at isFound
      · exact (tried isFound).imp id (.inr ∘ .inl)
      · cases isFound
    next => exact (tried taken).imp id (.inr ∘ .inr ∘ List.mem_singleton.mp)

/-- Only the extensions of the table stand for others. -/
theorem aliasesOf?_eq_none_of_forall {aliases : List (String × List String)}
    (unlisted : ∀ entry ∈ aliases, (Path.extension? path).map ("." ++ ·) ≠ some entry.1) :
    aliasesOf? aliases path = none := by
  refine Option.eq_none_iff_forall_ne_some.mpr fun found aliased => ?_
  obtain ⟨extension, own, aliased⟩ := Option.bind_eq_some_iff.mp aliased
  obtain ⟨entry, isFound, -⟩ := Option.bind_eq_some_iff.mp aliased
  refine unlisted entry (List.mem_of_find?_eq_some isFound) ?_
  have same : entry.1 = "." ++ extension := by simpa using List.find?_some isFound
  rw [own, Option.map_some, same]

/-! ## Cleanliness -/

/-- A path whose extension stands for others is its stem with that extension. The stem is cut by
length, so it has to be shown that the extension is what is cut. -/
theorem exists_extension_of_aliasesOf? {aliases : List (String × List String)}
    {texts replacements : List String} {stem : String} (named : ∀ text ∈ texts, IsName text)
    (found : aliasesOf? aliases (rooted texts) = some (stem, replacements)) :
    ∃ extension, Path.extension? (rooted texts) = some extension ∧
      ("." ++ extension, replacements) ∈ aliases ∧
      (rooted texts).toList = stem.toList ++ '.' :: extension.toList ∧
      '/' ∉ extension.toList := by
  obtain ⟨extension, own, found⟩ := Option.bind_eq_some_iff.mp found
  obtain ⟨⟨key, other⟩, listed, found⟩ := Option.bind_eq_some_iff.mp found
  cases found
  have same : key = "." ++ extension := by simpa using List.find?_some listed
  obtain ⟨lead, written, slashless⟩ := Path.exists_stem_of_extension? named own
  refine ⟨extension, own, same ▸ List.mem_of_find?_eq_some listed, ?_, slashless⟩
  have length : (rooted texts).length = lead.length + (extension.length + 1) := by
    rw [← String.length_toList, written, List.length_append, List.length_cons,
      String.length_toList]
  rw [String.toList_ofList, length, Nat.add_sub_cancel, written, List.take_left]

/-- **The rivals of a clean path to a file are clean**, when the extensions in effect hold no
slash. -/
theorem clean_of_mem_rivals {texts : List String} {rival : String} (nonempty : texts ≠ [])
    (named : ∀ text ∈ texts, IsName text)
    (slashless : ∀ extension ∈ extensions, '/' ∉ extension.toList)
    (mem : rival ∈ rivals extensions (rooted texts)) : Path.clean rival = rival := by
  have tried := mem_namedCandidates_of_mem_rivals mem
  rcases List.mem_append.mp tried with tried | tried
  · split at tried
    next stem replacements found =>
      obtain ⟨replacement, listed, rfl⟩ := List.mem_map.mp tried
      obtain ⟨extension, -, aliased, written, absent⟩ := exists_extension_of_aliasesOf? named found
      have plain : ∀ entry ∈ extensionAliases, ∀ replacement ∈ entry.2,
          '/' ∉ replacement.toList ∧ 3 ≤ replacement.toList.length := by decide
      obtain ⟨replacementAbsent, long⟩ := plain _ aliased replacement listed
      have same : stem ++ replacement = String.ofList (stem.toList ++ replacement.toList) := by
        apply String.toList_inj.mp
        simp
      rw [same]
      exact Path.clean_stem named written (by simp [absent]) replacementAbsent long
    next =>
      split at tried
      · split at tried
        · rw [List.mem_singleton.mp tried, Path.clean_rooted named]
        · exact absurd tried List.not_mem_nil
      · exact absurd tried List.not_mem_nil
  · obtain ⟨extension, listed, rfl⟩ := List.mem_map.mp tried
    have same : rooted texts ++ extension =
        String.ofList ((rooted texts).toList ++ extension.toList) := by
      apply String.toList_inj.mp
      simp
    rw [same]
    exact Path.clean_append nonempty named (slashless extension listed)

/-- Extensions in effect have no slash if those of the configuration have none. The ones that are in
effect by default have none either. -/
theorem slash_not_mem_of_effectiveExtensions {given : List String}
    (slashless : ∀ extension ∈ given, '/' ∉ extension.toList) :
    ∀ extension ∈ effectiveExtensions given, '/' ∉ extension.toList := by
  intro extension mem
  simp only [effectiveExtensions] at mem
  split at mem
  · revert extension
    decide
  · obtain ⟨bare, isGiven, rfl⟩ := List.mem_map.mp mem
    unfold dotted
    split <;> simp [slashless bare isGiven]

/-- **A file is taken for itself just when none of its rivals is a file.** A rival that is one goes
before it, and stays another path when it is cleaned. -/
theorem clean_first_rival_eq_iff (tree : FileTree) {texts : List String} (nonempty : texts ≠ [])
    (named : ∀ text ∈ texts, IsName text)
    (slashless : ∀ extension ∈ extensions, '/' ∉ extension.toList) :
    Path.clean ((firstFile? tree (rivals extensions (rooted texts))).getD (rooted texts)) =
        rooted texts ↔
      ∀ rival ∈ rivals extensions (rooted texts), tree.isFile rival = false := by
  constructor
  · intro same rival mem
    by_contra isFile
    obtain ⟨first, isFirst⟩ :
        ∃ first, firstFile? tree (rivals extensions (rooted texts)) = some first :=
      Option.isSome_iff_exists.mp
        (List.find?_isSome.mpr ⟨rival, mem, by simpa using isFile⟩)
    have listed := List.mem_of_find?_eq_some isFirst
    refine ne_of_mem_rivals listed ?_
    rwa [isFirst, Option.getD_some, clean_of_mem_rivals nonempty named slashless listed] at same
  · intro missing
    have none : firstFile? tree (rivals extensions (rooted texts)) = none :=
      List.find?_eq_none.mpr fun rival mem => by simp [missing rival mem]
    rw [none, Option.getD_none, Path.clean_rooted named]

end StyleGraph.Resolve
