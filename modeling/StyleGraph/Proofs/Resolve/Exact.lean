import StyleGraph.Proofs.Resolve.Candidate
import StyleGraph.Proofs.Specifier

/-!
# When a specifier names an existing file

A specifier that is a path may name a file in full. Whether it is resolved to that very file depends
on the extension of the file: when the extension is in effect the file is tried first, and nothing
beside it counts; when it is not, its path with each extension in effect is tried before the file
itself. `resolve_of_names_file` says for every tree, every list of extensions and every such
specifier which file is found, unless the extension is one of a script that stands for typed
sources. `resolve_of_named_after` is a file that yields to another one named after it.
-/

set_option autoImplicit false

namespace StyleGraph.Resolve

variable {extensions : List String} {path : String}

/-- Whether the extension of a path is one of those in effect. -/
def isListed (extensions : List String) (path : String) : Bool :=
  (Path.extension? path).any fun extension => extensions.contains ("." ++ extension)

/-- Every extension in effect begins with a dot. A dot is put before those that are given without
one. -/
theorem ne_empty_of_mem_effectiveExtensions {given : List String} {extension : String}
    (mem : extension ∈ effectiveExtensions given) : extension ≠ "" := by
  unfold effectiveExtensions at mem
  split at mem
  next =>
    revert extension
    decide
  next =>
    obtain ⟨written, -, rfl⟩ := List.mem_map.mp mem
    rintro empty
    unfold dotted at empty
    split at empty
    next leads => simp [empty] at leads
    next => simpa using congrArg String.toList empty

/-- What has an extension added is another path. -/
theorem append_ne_of_ne_empty {extension : String} (filled : extension ≠ "") :
    path ++ extension ≠ path := by
  intro same
  have longer := congrArg String.length same
  rw [String.length_append, Nat.add_eq_left, String.length_eq_zero_iff] at longer
  exact filled longer

/-- The rivals of a path whose extension stands for no others: none when the extension is in effect,
else the path with each extension added. -/
theorem rivals_of_aliasesOf?_eq_none (unaliased : aliasesOf? extensionAliases path = none)
    (filled : ∀ extension ∈ extensions, extension ≠ "") :
    rivals extensions path =
      if isListed extensions path then [] else extensions.map (path ++ ·) := by
  have others : (extensions.map (path ++ ·)).takeWhile (· != path) =
      extensions.map (path ++ ·) := by
    refine List.takeWhile_eq_self_iff.mpr fun other mem => ?_
    obtain ⟨extension, listed, rfl⟩ := List.mem_map.mp mem
    exact bne_iff_ne.mpr (append_ne_of_ne_empty (filled extension listed))
  have tried : namedCandidates extensions path =
      (if isListed extensions path then [path] else []) ++ extensions.map (path ++ ·) := by
    cases own : Path.extension? path with
    | none =>
      have unlisted : isListed extensions path = false := by rw [isListed, own, Option.any_none]
      simp only [namedCandidates, unaliased, own, unlisted, Bool.false_eq_true, if_false]
    | some extension =>
      have listed : isListed extensions path = extensions.contains ("." ++ extension) := by
        rw [isListed, own, Option.any_some]
      simp only [namedCandidates, unaliased, own, listed]
  rw [rivals, tried]
  split
  · simp
  · exact others

namespace Resolver

variable {resolver : Resolver} {specifier importer directory : String}

/-- The path that a specifier of an importer writes, if it is an absolute or a relative path. -/
def writtenPath? (resolver : Resolver) (specifier importer directory : String) : Option String :=
  match Specifier.classify specifier with
  | .absolute => some (Path.clean specifier)
  | .relative =>
    some (Path.clean (Path.join (resolver.importerDirectory importer directory) specifier))
  | _ => none

/-- A specifier that writes a path is resolved to the file that the path is taken for. Aliases and
packages are not asked about such a specifier. -/
theorem resolve_of_tryCandidate? {target : String} (plain : '?' ∉ specifier.toList)
    (written : resolver.writtenPath? specifier importer directory = some path)
    (taken : tryCandidate? resolver.tree resolver.extensions path = some target) :
    resolver.resolve specifier importer directory = .found target := by
  have nonempty : specifier.isEmpty = false := by
    rw [← Bool.not_eq_true, String.isEmpty_iff]
    rintro rfl
    cases written
  unfold writtenPath? at written
  unfold resolve
  simp only [Specifier.splitQuery_of_not_mem plain, nonempty, Bool.false_eq_true, if_false]
  split at written
  next absolute => cases written; simp only [absolute, taken]
  next relative => cases written; simp only [relative, taken]
  next => cases written

end Resolver

/-- **A specifier that names a file in full is resolved to that file if its extension is in effect,
else to the first file that is named after it, else to that file.** So the file is found just when
its extension is in effect or nothing beside it is a file under its name with one more extension. -/
theorem resolve_of_names_file (tree : FileTree) (given : List String) (mode : AliasMode)
    (base specifier importer directory : String) {path : String} (plain : '?' ∉ specifier.toList)
    (written : (Resolver.ofOptions tree given mode base).writtenPath? specifier importer directory =
      some path)
    (file : tree.isFile path = true)
    (unaliased : ∀ entry ∈ extensionAliases,
      (Path.extension? path).map ("." ++ ·) ≠ some entry.1) :
    let extensions := effectiveExtensions given
    let after := if isListed extensions path then [] else extensions.map (path ++ ·)
    let resolution :=
      (Resolver.ofOptions tree given mode base).resolve specifier importer directory
    resolution = .found ((firstFile? tree after).getD path) ∧
      (resolution = .found path ↔ isListed extensions path = true ∨
        ∀ extension ∈ extensions, tree.isFile (path ++ extension) = false) := by
  intro extensions after resolution
  have filled : ∀ extension ∈ extensions, extension ≠ "" := fun _ =>
    ne_empty_of_mem_effectiveExtensions
  have rivalsAre : rivals extensions path = after :=
    rivals_of_aliasesOf?_eq_none (aliasesOf?_eq_none_of_forall unaliased) filled
  have taken : tryCandidate? tree extensions path = some ((firstFile? tree after).getD path) := by
    rw [tryCandidate?_of_isFile file, rivalsAre]
  have found : resolution = .found ((firstFile? tree after).getD path) :=
    Resolver.resolve_of_tryCandidate? plain written taken
  have missing : firstFile? tree after = none ↔ isListed extensions path = true ∨
      ∀ extension ∈ extensions, tree.isFile (path ++ extension) = false := by
    simp only [after, firstFile?, List.find?_eq_none, Bool.not_eq_true]
    split <;> simp_all
  refine ⟨found, ?_⟩
  rw [found, Resolution.found.injEq, ← missing]
  cases first : firstFile? tree after with
  | none => simp
  | some other =>
    have rival : other ∈ rivals extensions path := rivalsAre ▸ List.mem_of_find?_eq_some first
    simpa using ne_of_mem_rivals rival

/-- Files with others named after them: a style, whose extension is in effect, and data. -/
def namesakes : FileTree where
  files :=
    [(["src", "a.css"], .text ""), (["src", "a.css.ts"], .text ""), (["src", "a.json"], .text ""),
      (["src", "a.json.ts"], .text ""), (["src", "index.ts"], .text "")]

/-- The style is found although a module is named after it. -/
theorem resolve_of_names_file_style :
    namesakes.isFile "/src/a.css" = true ∧ namesakes.isFile "/src/a.css.ts" = true ∧
      (Resolver.ofOptions namesakes [] .off "/").resolve "../src/./a.css" "/src/index.ts" "/" =
        .found "/src/a.css" := by
  refine ⟨by decide +kernel, by decide +kernel, ?_⟩
  refine (@resolve_of_names_file namesakes [] .off "/" "../src/./a.css" "/src/index.ts" "/"
    "/src/a.css" ?_ ?_ ?_ ?_).2.mpr (.inl ?_)
  all_goals decide +kernel

/-- **A file whose extension is not in effect yields to a script that is named after it.** -/
theorem resolve_of_named_after :
    let resolver := Resolver.ofOptions namesakes [] .off "/"
    resolver.writtenPath? "./a.json" "/src/index.ts" "/" = some "/src/a.json" ∧
      namesakes.isFile "/src/a.json" = true ∧
      (∀ entry ∈ extensionAliases, (Path.extension? "/src/a.json").map ("." ++ ·) ≠ some entry.1) ∧
      resolver.resolve "./a.json" "/src/index.ts" "/" = .found "/src/a.json.ts" := by
  decide +kernel

end StyleGraph.Resolve
