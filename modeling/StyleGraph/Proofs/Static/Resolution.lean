import StyleGraph.Proofs.Resolve.Candidate
import StyleGraph.Proofs.Specifier
import StyleGraph.Proofs.Static.Reading

/-!
# Two ways to resolve a specifier

A relative specifier of a CSS-in-TS module is resolved twice: to evaluate the module, where it may
stand for CSS-in-TS modules only (`Static.resolve?`), and to walk on from it, where it may stand for
any file (`Resolve.Resolver.resolve`). The two try their candidates in orders of their own, and only
the second puts typed sources in place of plain ones first.

`resolve_eq_found_iff` says where they meet: a specifier that is evaluated as a module is walked to
that module just when no other file shadows it (`Shadowed`).
-/

set_option autoImplicit false

namespace StyleGraph.Static

open Resolve (aliasesOf? aliasesOf?_eq_none_of_forall defaultExtensions extensionAliases firstFile?
  namedCandidates Resolver tryCandidate? tryCandidate?_of_firstFile?)
open StyleGraph.Path (IsName rooted)

variable {tree : FileTree} {base target : String} {lead name stem : List Char}

/-- The extensions of scripts without types. -/
def plainExtensions : List String := ["js", "mjs", "cjs", "jsx"]

/-- The extensions of scripts with types. -/
def typedExtensions : List String := ["ts", "tsx", "mts", "cts"]

/-! ## Names of modules -/

/-- A name is that of a CSS-in-TS module when `.css` stands before the extension of a script. The
listed suffixes are just these, one for each extension. -/
theorem isVanillaName_iff {name : String} :
    Dialect.isVanillaName name = true ↔ ∃ extension ∈ scriptExtensions, ∃ stem,
      name.toList = (stem ++ ".css".toList) ++ '.' :: extension.toList := by
  have suffixes : Dialect.vanillaSuffixes.map String.toList =
      scriptExtensions.map fun extension => ".css".toList ++ '.' :: extension.toList := by decide
  have any : Dialect.isVanillaName name =
      (Dialect.vanillaSuffixes.map String.toList).any (Text.endsWith · name.toList) := by
    rw [List.any_map]
    rfl
  rw [any, suffixes, List.any_map, List.any_eq_true]
  refine exists_congr fun extension => and_congr_right fun _ => ?_
  simp only [Function.comp, Text.endsWith, Option.isSome_iff_exists, Text.stripEnd?_eq_some_iff,
    List.append_assoc]

/-- No extension of a script holds a dot or a slash, and each is two characters long at least. -/
theorem plain_of_mem_scriptExtensions {extension : String} (mem : extension ∈ scriptExtensions) :
    '.' ∉ extension.toList ∧ '/' ∉ extension.toList ∧ 2 ≤ extension.toList.length := by
  revert extension
  decide

/-- The typed extensions are among those of scripts. -/
theorem mem_scriptExtensions_of_typed :
    ∀ extension ∈ typedExtensions, extension ∈ scriptExtensions := by
  decide

/-- The ending of style sheets as characters. -/
theorem toList_css : ".css".toList = '.' :: "css".toList := by decide

/-- A path is a name behind a slash, and any name that stands there is a file name. -/
structure Placed (base : String) (lead name : List Char) : Prop where
  written : base.toList = lead ++ '/' :: name
  named : IsName (String.ofList name)
  fileName? : ∀ text, IsName text →
    Path.fileName? (String.ofList (lead ++ '/' :: text.toList)) = some text

/-- A rooted path ends in its last name. -/
theorem placed_rooted {texts : List String} {text : String} (named : ∀ name ∈ texts, IsName name)
    (isName : IsName text) : ∃ lead, Placed (rooted (texts ++ [text])) lead text.toList := by
  obtain ⟨lead, leads⟩ := Path.exists_lead_rooted texts
  refine ⟨lead, leads text, by rwa [String.ofList_toList], fun other isOther => ?_⟩
  rw [← leads other, String.ofList_toList, Path.fileName?_rooted, List.getLast?_concat]
  intro member mem
  rcases List.mem_append.mp mem with mem | mem
  · exact named member mem
  · exact List.mem_singleton.mp mem ▸ isOther

namespace Placed

/-- The name of a placed file is what stands after the last slash. -/
theorem fileName?_base (placed : Placed base lead name) :
    Path.fileName? base = some (String.ofList name) := by
  have same := placed.fileName? _ placed.named
  rwa [String.toList_ofList, ← placed.written, String.ofList_toList] at same

/-- The extension of a path, by the characters of its name. -/
theorem extension?_eq_some_iff (placed : Placed base lead name) {extension : String} :
    Path.extension? base = some extension ↔
      ∃ stem, stem ≠ [] ∧ name = stem ++ '.' :: extension.toList ∧ '.' ∉ extension.toList := by
  have own : Path.extension? base = Path.extensionOfName? (String.ofList name) := by
    simp only [Path.extension?, placed.fileName?_base, Option.bind_eq_bind, Option.bind_some]
  rw [own, Path.extensionOfName?_eq_some_iff, String.toList_ofList]

/-- Beside a path, a stem with the extension of a script is a module when the stem ends in `.css`.
An extension holds no dot, so it is known from the name. -/
theorem isModulePath_iff (placed : Placed base lead name) {path extension : String}
    (absent : '/' ∉ stem) (listed : extension ∈ scriptExtensions)
    (written : path.toList = lead ++ '/' :: (stem ++ '.' :: extension.toList)) :
    isModulePath path = true ↔ ∃ rest, stem = rest ++ ".css".toList := by
  obtain ⟨dotless, slashless, long⟩ := plain_of_mem_scriptExtensions listed
  have isName : IsName (String.ofList (stem ++ '.' :: extension.toList)) :=
    Path.isName_of_three_le (by simp [absent, slashless]) (by simp; omega)
  have fileName := placed.fileName? _ isName
  rw [String.toList_ofList, ← written, String.ofList_toList] at fileName
  simp only [isModulePath, fileName, Option.any_some, isVanillaName_iff, String.toList_ofList]
  constructor
  · rintro ⟨other, isListed, rest, same⟩
    have otherDotless := (plain_of_mem_scriptExtensions isListed).1
    exact ⟨rest, (Text.append_cons_inj_of_not_mem dotless otherDotless same).1⟩
  · rintro ⟨rest, rfl⟩
    exact ⟨extension, listed, rest, rfl⟩

/-- A path is a module only by the extension of a script behind `.css`. -/
theorem exists_of_isModulePath (placed : Placed base lead name)
    (isModule : isModulePath base = true) : ∃ extension ∈ scriptExtensions, ∃ rest,
      name = (rest ++ ".css".toList) ++ '.' :: extension.toList := by
  simpa only [isModulePath, placed.fileName?_base, Option.any_some, isVanillaName_iff,
    String.toList_ofList] using isModule

end Placed

/-! ## The modules among the candidates -/

/-- The module that a specifier stands for is the first file among the candidates that are
modules. -/
theorem find?_candidates (base : String) :
    ((candidates base).find? fun path => isModulePath path && tree.isFile path) =
      firstFile? tree ((candidates base).filter isModulePath) := by
  simp only [firstFile?, List.find?_filter, Bool.decide_and, Bool.decide_eq_true]

/-- The candidates of a path with an extension. Only the extension of a script without types is put
aside for others. -/
theorem candidates_eq {extension : String} (dotless : '.' ∉ extension.toList)
    (written : base.toList = stem ++ '.' :: extension.toList) :
    candidates base =
      base :: (scriptExtensions.map fun added => base ++ "." ++ added) ++
        if extension ∈ plainExtensions then
          typedExtensions.map fun typed => String.ofList stem ++ "." ++ typed
        else [] := by
  have stripped : ∀ plain ∈ plainExtensions, Text.stripEnd? ("." ++ plain).toList base.toList =
      if plain = extension then some stem else none := by
    intro plain mem
    have plainDotless : '.' ∉ plain.toList := by
      revert plain
      decide
    have tail : ("." ++ plain).toList = '.' :: plain.toList := by simp
    rw [tail, written]
    split
    next same => rw [same, Text.stripEnd?_eq_some_iff]
    next differs =>
      refine Option.eq_none_iff_forall_ne_some.mpr fun other found => differs ?_
      have same := Text.stripEnd?_eq_some_iff.mp found
      exact (String.toList_inj.mp
        (Text.append_cons_inj_of_not_mem dotless plainDotless same).2).symm
  have others : (plainExtensions.map ("." ++ ·)).flatMap (fun tail =>
      (Text.stripEnd? tail.toList base.toList).elim [] fun stem =>
        typedExtensions.map fun typed => String.ofList stem ++ "." ++ typed) =
        if extension ∈ plainExtensions then
          typedExtensions.map fun typed => String.ofList stem ++ "." ++ typed
        else [] := by
    have each : ∀ plain ∈ plainExtensions,
        ((Text.stripEnd? ("." ++ plain).toList base.toList).elim [] fun stem =>
          typedExtensions.map fun typed => String.ofList stem ++ "." ++ typed) =
          if plain = extension then
            typedExtensions.map fun typed => String.ofList stem ++ "." ++ typed
          else [] := by
      intro plain mem
      rw [stripped plain mem]
      split <;> simp_all
    rw [List.flatMap_map, List.flatMap_congr each]
    by_cases listed : extension ∈ plainExtensions
    · rw [if_pos listed]
      simp only [plainExtensions, List.mem_cons, List.not_mem_nil, or_false] at listed
      rcases listed with rfl | rfl | rfl | rfl <;> simp [plainExtensions]
    · rw [if_neg listed, List.flatMap_eq_nil_iff]
      intro plain mem
      rw [if_neg]
      rintro rfl
      exact listed mem
  rw [← others, candidates]
  refine congrArg (base :: (scriptExtensions.map fun added => base ++ "." ++ added) ++ ·)
    (List.flatMap_congr fun tail _ => ?_)
  cases Text.stripEnd? tail.toList base.toList <;> rfl

/-- A specifier names a sheet: it may stand for a module with the extension of a script behind. The
endings of sheets that could also stand for it are none of modules, which leaves the scripts. -/
theorem Placed.filter_sheet (placed : Placed base lead name) {rest : List Char}
    (sheet : name = rest ++ ".css".toList) :
    (candidates base).filter isModulePath =
      scriptExtensions.map fun added => base ++ "." ++ added := by
  have absent : '/' ∉ name := by simpa using placed.named.1
  have written : base.toList = (lead ++ '/' :: rest) ++ '.' :: "css".toList := by
    rw [placed.written, sheet]
    simp
  have noModule : isModulePath base ≠ true := by
    intro isModule
    obtain ⟨extension, listed, other, same⟩ := placed.exists_of_isModulePath isModule
    obtain ⟨dotless, -, -⟩ := plain_of_mem_scriptExtensions listed
    rw [sheet, toList_css] at same
    have css := (Text.append_cons_inj_of_not_mem (by decide) dotless same).2
    rw [← String.toList_inj.mp css] at listed
    exact absurd listed (by decide)
  have added : ∀ path ∈ scriptExtensions.map fun added => base ++ "." ++ added,
      isModulePath path = true := by
    intro path mem
    obtain ⟨extension, listed, rfl⟩ := List.mem_map.mp mem
    refine (placed.isModulePath_iff absent listed ?_).mpr ⟨rest, sheet⟩
    simp [placed.written]
  rw [candidates_eq (by decide) written, if_neg (by decide), List.append_nil,
    List.filter_cons_of_neg (by simpa using noModule), List.filter_eq_self.mpr added]

/-- A specifier names a module: it may stand for that module, or for one with types in place of one
without. -/
theorem Placed.filter_module (placed : Placed base lead name) {rest : List Char}
    {extension : String} (listed : extension ∈ scriptExtensions)
    (isModule : name = (rest ++ ".css".toList) ++ '.' :: extension.toList) :
    (candidates base).filter isModulePath =
      base ::
        if extension ∈ plainExtensions then
          typedExtensions.map fun typed =>
            String.ofList (lead ++ '/' :: (rest ++ ".css".toList)) ++ "." ++ typed
        else [] := by
  have absent : '/' ∉ name := by simpa using placed.named.1
  obtain ⟨dotless, -, -⟩ := plain_of_mem_scriptExtensions listed
  have stemAbsent : '/' ∉ rest ++ ".css".toList := by
    intro mem
    exact absent (isModule ▸ List.mem_append_left _ mem)
  have written : base.toList =
      (lead ++ '/' :: (rest ++ ".css".toList)) ++ '.' :: extension.toList := by
    rw [placed.written, isModule]
    simp
  have own : isModulePath base = true :=
    (placed.isModulePath_iff stemAbsent listed (by rw [placed.written, isModule])).mpr ⟨rest, rfl⟩
  have added : ∀ path ∈ scriptExtensions.map fun added => base ++ "." ++ added,
      ¬ isModulePath path = true := by
    intro path mem behind
    obtain ⟨other, isListed, rfl⟩ := List.mem_map.mp mem
    obtain ⟨front, same⟩ := (placed.isModulePath_iff absent isListed (by simp [placed.written])).mp
      behind
    rw [isModule, toList_css] at same
    have css := (Text.append_cons_inj_of_not_mem dotless (by decide) same).2
    rw [String.toList_inj.mp css] at listed
    exact absurd listed (by decide)
  have typed : ∀ path ∈ typedExtensions.map fun typed =>
      String.ofList (lead ++ '/' :: (rest ++ ".css".toList)) ++ "." ++ typed,
        isModulePath path = true := by
    intro path mem
    obtain ⟨other, isTyped, rfl⟩ := List.mem_map.mp mem
    have isListed := mem_scriptExtensions_of_typed other isTyped
    exact (placed.isModulePath_iff stemAbsent isListed (by simp)).mpr ⟨rest, rfl⟩
  rw [candidates_eq dotless written, List.filter_append, List.filter_cons_of_pos own,
    List.filter_eq_nil_iff.mpr added]
  split
  · rw [List.filter_eq_self.mpr typed, List.singleton_append]
  · simp

/-- A specifier that may stand for a module names a sheet or a module. There is no third kind, since
modules are known by the ending of sheets in front of that of a script, or alone. -/
theorem Placed.cases_of_mem_candidates (placed : Placed base lead name)
    (mem : target ∈ candidates base) (isModule : isModulePath target = true) :
    (∃ rest, name = rest ++ ".css".toList) ∨ ∃ extension ∈ scriptExtensions, ∃ rest,
      name = (rest ++ ".css".toList) ++ '.' :: extension.toList := by
  have absent : '/' ∉ name := by simpa using placed.named.1
  rcases List.mem_cons.mp mem with rfl | mem
  · exact .inr (placed.exists_of_isModulePath isModule)
  rcases List.mem_append.mp mem with mem | mem
  · obtain ⟨extension, listed, rfl⟩ := List.mem_map.mp mem
    exact .inl ((placed.isModulePath_iff absent listed (by simp [placed.written])).mp isModule)
  · obtain ⟨tail, listed, mem⟩ := List.mem_flatMap.mp mem
    have tails : ∀ tail ∈ [".js", ".mjs", ".cjs", ".jsx"], ∃ plain ∈ scriptExtensions,
        '/' ∉ tail.toList ∧ tail.toList = '.' :: plain.toList := by decide
    obtain ⟨plain, isPlain, slashless, tailWritten⟩ := tails tail listed
    split at mem
    next stem stripped =>
      obtain ⟨typed, isTyped, rfl⟩ := List.mem_map.mp mem
      have isListed := mem_scriptExtensions_of_typed typed isTyped
      have whole := Text.eq_append_of_stripEnd? stripped
      rw [placed.written] at whole
      -- the stem reaches into the name, because what is taken off holds no slash
      obtain ⟨front, back, rfl, backAbsent⟩ : ∃ front back, stem = front ++ '/' :: back ∧
          '/' ∉ back := by
        refine Text.exists_append_cons_of_mem ?_
        have slash : '/' ∈ stem ++ tail.toList := whole ▸ by simp
        exact (List.mem_append.mp slash).resolve_right slashless
      rw [List.append_assoc, List.cons_append] at whole
      obtain ⟨rfl, rfl⟩ := Text.append_cons_inj_of_not_mem absent (by simp [backAbsent, slashless])
        whole
      obtain ⟨rest, rfl⟩ := (placed.isModulePath_iff backAbsent isListed (by simp)).mp isModule
      exact .inr ⟨plain, isPlain, rest, by rw [tailWritten]⟩
    next => cases mem

/-! ## What is walked to -/

/-- **Another file stands in the way of a module**: where the specifier names a sheet, that sheet,
and where it names a script without types, the first file that is tried in place of it. -/
def Shadowed (tree : FileTree) (base target : String) : Prop :=
  (Path.extension? base = some "css" ∧ tree.isFile base = true) ∨
    ∃ stem replacements, aliasesOf? extensionAliases base = some (stem, replacements) ∧
      firstFile? tree (replacements.map (stem ++ ·)) ≠ some target

/-- Only the extensions of scripts without types stand for others. -/
theorem aliasesOf?_eq_none
    (typed : ∀ extension, Path.extension? base = some extension → extension ∉ plainExtensions) :
    aliasesOf? extensionAliases base = none := by
  have keys : ∀ entry ∈ extensionAliases, ∃ plain ∈ plainExtensions, entry.1 = "." ++ plain := by
    decide
  refine aliasesOf?_eq_none_of_forall fun entry listed same => ?_
  obtain ⟨plain, isPlain, key⟩ := keys entry listed
  obtain ⟨extension, own, written⟩ := Option.map_eq_some_iff.mp same
  rw [key, String.append_right_inj] at written
  exact typed extension own (written ▸ isPlain)

/-- The extension of a script without types stands for others. Its own extension is among them, so
the file itself is a candidate too. -/
theorem aliasesOf?_of_mem {extension : String} (own : Path.extension? base = some extension)
    (plain : extension ∈ plainExtensions)
    (written : base.toList = stem ++ '.' :: extension.toList) :
    ∃ replacements, aliasesOf? extensionAliases base = some (String.ofList stem, replacements) ∧
      "." ++ extension ∈ replacements := by
  have listed : ∀ extension ∈ plainExtensions, ∃ entry ∈ extensionAliases,
      (extensionAliases.find? fun entry => entry.1 = "." ++ extension) = some entry ∧
        "." ++ extension ∈ entry.2 := by decide
  obtain ⟨⟨_, replacements⟩, -, found, among⟩ := listed extension plain
  refine ⟨replacements, ?_, among⟩
  have length : base.length = stem.length + (extension.length + 1) := by
    rw [← String.length_toList, written, List.length_append, List.length_cons,
      String.length_toList]
  simp only [aliasesOf?, own, Option.bind_eq_bind, Option.bind_some, found, written, length,
    Nat.add_sub_cancel, List.take_left]

/-- A specifier that names a sheet is walked to the module behind it, unless the sheet is there. The
walk asks for the sheet first and for the extensions of scripts behind it, in the order of the
evaluator but for the ones without types. -/
theorem Placed.tryCandidate?_of_sheet (placed : Placed base lead name) {rest : List Char}
    (sheet : name = rest ++ ".css".toList)
    (found : firstFile? tree ((candidates base).filter isModulePath) = some target) :
    tryCandidate? tree defaultExtensions base = some target ↔ ¬ Shadowed tree base target := by
  rw [placed.filter_sheet sheet] at found
  have only : ∀ extension, Path.extension? base = some extension → extension = "css" := by
    intro extension own
    obtain ⟨stem, -, same, dotless⟩ := placed.extension?_eq_some_iff.mp own
    rw [sheet, toList_css] at same
    exact (String.toList_inj.mp (Text.append_cons_inj_of_not_mem (by decide) dotless same).2).symm
  have unaliased : aliasesOf? extensionAliases base = none :=
    aliasesOf?_eq_none fun extension own => only extension own ▸ by decide
  have shadowed : Shadowed tree base target ↔
      Path.extension? base = some "css" ∧ tree.isFile base = true := by
    simp [Shadowed, unaliased]
  -- the extensions of scripts are tried in the same order, and before all others
  have added : firstFile? tree (defaultExtensions.map (base ++ ·)) = some target := by
    have order : defaultExtensions =
        scriptExtensions.map ("." ++ ·) ++ [".css", ".scss", ".sass", ".less"] := by decide
    have same : (scriptExtensions.map ("." ++ ·)).map (base ++ ·) =
        scriptExtensions.map fun added => base ++ "." ++ added := by
      rw [List.map_map]
      exact List.map_congr_left fun _ _ => String.append_assoc.symm
    unfold firstFile? at found ⊢
    rw [order, List.map_append, same, List.find?_append, found, Option.some_or]
  have longer : target ≠ base := by
    rintro rfl
    obtain ⟨extension, -, same⟩ := List.mem_map.mp (List.mem_of_find?_eq_some found)
    have length := congrArg String.length same
    simp only [String.length_append] at length
    have dot : ".".length = 1 := by decide
    omega
  rw [shadowed]
  by_cases own : Path.extension? base = some "css"
  · have named : namedCandidates defaultExtensions base =
        base :: defaultExtensions.map (base ++ ·) := by
      simp only [namedCandidates, unaliased, own]
      rw [if_pos (by decide), List.singleton_append]
    cases file : tree.isFile base with
    | true =>
      have first : tryCandidate? tree defaultExtensions base = some base :=
        tryCandidate?_of_firstFile? (by rw [named, firstFile?, List.find?_cons, file])
      simp [first, own, longer.symm]
    | false =>
      have first : tryCandidate? tree defaultExtensions base = some target :=
        tryCandidate?_of_firstFile? (by
          rw [named, firstFile?, List.find?_cons, file]
          exact added)
      simp [first]
  · have none : Path.extension? base = none :=
      Option.eq_none_iff_forall_ne_some.mpr fun extension found =>
        own (only extension found ▸ found)
    have first : tryCandidate? tree defaultExtensions base = some target :=
      tryCandidate?_of_firstFile? (by
        simp only [namedCandidates, unaliased, none, List.nil_append]
        exact added)
    simp [first, own]

/-- A specifier that names a module with types is walked to it. No file stands for it under another
ending, as only endings without types have such stand-ins. -/
theorem Placed.tryCandidate?_of_typed (placed : Placed base lead name) {rest : List Char}
    {extension : String} (listed : extension ∈ scriptExtensions)
    (typed : extension ∉ plainExtensions)
    (isModule : name = (rest ++ ".css".toList) ++ '.' :: extension.toList)
    (found : firstFile? tree ((candidates base).filter isModulePath) = some target) :
    tryCandidate? tree defaultExtensions base = some target ∧ ¬ Shadowed tree base target := by
  rw [placed.filter_module listed isModule, if_neg typed] at found
  obtain ⟨dotless, -, -⟩ := plain_of_mem_scriptExtensions listed
  have own : Path.extension? base = some extension :=
    placed.extension?_eq_some_iff.mpr ⟨_, by simp, isModule, dotless⟩
  have unaliased : aliasesOf? extensionAliases base = none := by
    refine aliasesOf?_eq_none fun other same => ?_
    rw [own] at same
    cases same
    exact typed
  have inEffect : ∀ extension ∈ scriptExtensions,
      defaultExtensions.contains ("." ++ extension) = true ∧ extension ≠ "css" := by decide
  have same : target = base := List.mem_singleton.mp (List.mem_of_find?_eq_some found)
  have file : tree.isFile base = true := same ▸ List.find?_some found
  constructor
  · refine tryCandidate?_of_firstFile? ?_
    simp only [namedCandidates, unaliased, own, (inEffect extension listed).1, if_true, firstFile?,
      List.singleton_append, List.find?_cons, file, same]
  · rintro (⟨css, -⟩ | ⟨stem, replacements, aliased, -⟩)
    · rw [own] at css
      exact (inEffect extension listed).2 (Option.some.inj css)
    · rw [unaliased] at aliased
      cases aliased

/-- A specifier that names a module without types is walked to the first file that is tried in place
of it. -/
theorem Placed.tryCandidate?_of_plain (placed : Placed base lead name) {rest : List Char}
    {extension : String} (listed : extension ∈ scriptExtensions)
    (plain : extension ∈ plainExtensions)
    (isModule : name = (rest ++ ".css".toList) ++ '.' :: extension.toList)
    (found : firstFile? tree ((candidates base).filter isModulePath) = some target) :
    tryCandidate? tree defaultExtensions base = some target ↔ ¬ Shadowed tree base target := by
  rw [placed.filter_module listed isModule, if_pos plain] at found
  obtain ⟨dotless, -, -⟩ := plain_of_mem_scriptExtensions listed
  have own : Path.extension? base = some extension :=
    placed.extension?_eq_some_iff.mpr ⟨_, by simp, isModule, dotless⟩
  have written : base.toList =
      (lead ++ '/' :: (rest ++ ".css".toList)) ++ '.' :: extension.toList := by
    rw [placed.written, isModule]
    simp
  obtain ⟨replacements, aliased, among⟩ := aliasesOf?_of_mem own plain written
  have whole : base = String.ofList (lead ++ '/' :: (rest ++ ".css".toList)) ++ "." ++ extension := by
    apply String.toList_inj.mp
    rw [written]
    simp
  generalize String.ofList (lead ++ '/' :: (rest ++ ".css".toList)) = stem at *
  have css : extension ≠ "css" := by
    rintro rfl
    exact absurd plain (by decide)
  have shadowed : ¬ Shadowed tree base target ↔
      firstFile? tree (replacements.map (stem ++ ·)) = some target := by
    simp [Shadowed, own, css, aliased]
  have named : namedCandidates defaultExtensions base =
      replacements.map (stem ++ ·) ++ defaultExtensions.map (base ++ ·) := by
    simp only [namedCandidates, aliased]
  rw [shadowed]
  cases first : firstFile? tree (replacements.map (stem ++ ·)) with
  | some replaced =>
    have taken : tryCandidate? tree defaultExtensions base = some replaced :=
      tryCandidate?_of_firstFile? (by
        unfold firstFile? at first ⊢
        rw [named, List.find?_append, first, Option.some_or])
    rw [taken]
  | none =>
    have missing := List.find?_eq_none.mp first
    refine iff_of_false (fun taken => ?_) (fun found => by cases found)
    obtain ⟨file, tried⟩ := Resolve.mem_of_tryCandidate? taken
    -- the path itself is one of the replacements, so the module is one with types, and too short
    have differs : target ≠ base := by
      rintro rfl
      refine missing _ (List.mem_map.mpr ⟨_, among, ?_⟩) file
      rw [whole, String.append_assoc]
    have short : target.length ≤ base.length + 1 := by
      rcases List.mem_cons.mp (List.mem_of_find?_eq_some found) with same | mem
      · exact absurd same differs
      · obtain ⟨typed, isTyped, rfl⟩ := List.mem_map.mp mem
        have bounds : ∀ typed ∈ typedExtensions, typed.length ≤ 3 := by decide
        have long : ∀ plain ∈ plainExtensions, 2 ≤ plain.length := by decide
        have typedBound := bounds typed isTyped
        have plainBound := long extension plain
        rw [whole]
        simp only [String.length_append]
        omega
    rcases tried with tried | tried | tried
    · rw [named] at tried
      rcases List.mem_append.mp tried with tried | tried
      · exact missing _ tried file
      · obtain ⟨added, inEffect, rfl⟩ := List.mem_map.mp tried
        have long : ∀ added ∈ defaultExtensions, 2 ≤ added.length := by decide
        have bound := long added inEffect
        rw [String.length_append] at short
        omega
    · have longer := Resolve.length_lt_of_mem_indexCandidates tried
      omega
    · exact differs tried

/-- The path that a relative specifier of a module is tried by. -/
def baseOf (importer specifier : String) : String :=
  Path.clean (Path.join ((Path.parent? importer).getD "") specifier)

/-- What is evaluated as a module is tried by a path with a name. The importer lies in a directory
and the specifier is relative, for nothing else is read as a path there. -/
theorem exists_placed_of_resolve? {importer specifier : String}
    (resolved : resolve? tree importer specifier = some target) :
    (∃ directory, Path.parent? importer = some directory) ∧
      Specifier.classify specifier = .relative ∧
      (∃ lead name, Placed (baseOf importer specifier) lead name) ∧
      firstFile? tree ((candidates (baseOf importer specifier)).filter isModulePath) =
        some target := by
  unfold resolve? at resolved
  simp only at resolved
  split at resolved
  next begins =>
    obtain ⟨directory, parent, found⟩ := Option.bind_eq_some_iff.mp resolved
    have base : baseOf importer specifier = Path.clean (Path.join directory specifier) := by
      simp only [baseOf, parent, Option.getD_some]
    rw [find?_candidates, ← base] at found
    refine ⟨⟨directory, parent⟩, Specifier.classify_of_startsWith begins, ?_, found⟩
    obtain ⟨content, lookup⟩ := FileTree.exists_lookup_of_isFile (List.find?_some found)
    have absolute := FileTree.isAbsolute_of_lookup lookup
    have tried := (List.mem_filter.mp (List.mem_of_find?_eq_some found)).1
    have fromRoot : Path.isAbsolute (baseOf importer specifier) = true := by
      rcases extends_of_mem_candidates tried with rfl | extended
      · exact absolute
      · exact isAbsolute_of_extends extended absolute
    obtain ⟨texts, named, written⟩ := Path.exists_rooted_of_isAbsolute_clean fromRoot
    change baseOf importer specifier = _ at written
    rw [written] at found ⊢
    cases texts using List.reverseRecOn with
    | nil =>
      -- a file name that is only an extension is not that of a module
      have none : (candidates (Path.rooted [])).filter isModulePath = [] := by decide
      rw [none] at found
      cases found
    | append_singleton texts text _ =>
      obtain ⟨lead, placed⟩ := placed_rooted
        (fun name mem => named name (List.mem_append_left _ mem)) (named text (by simp))
      exact ⟨lead, text.toList, placed⟩
  · cases resolved

/-- **A specifier that is evaluated as a module is walked to that module just when no other file
shadows it.** -/
theorem resolve_eq_found_iff {resolver : Resolver} {importer specifier directory : String}
    (default : resolver.extensions = defaultExtensions)
    (file : resolver.tree.isFile importer = true) (plain : '?' ∉ specifier.toList)
    (resolved : resolve? resolver.tree importer specifier = some target) :
    resolver.resolve specifier importer directory = .found target ↔
      ¬ Shadowed resolver.tree (baseOf importer specifier) target := by
  obtain ⟨⟨parent, isParent⟩, relative, ⟨lead, name, placed⟩, found⟩ :=
    exists_placed_of_resolve? resolved
  have nonempty : specifier.isEmpty = false := by
    rw [← Bool.not_eq_true, String.isEmpty_iff]
    rintro rfl
    exact absurd relative (by decide)
  have walked : resolver.resolve specifier importer directory = .found target ↔
      tryCandidate? resolver.tree defaultExtensions (baseOf importer specifier) = some target := by
    unfold Resolver.resolve
    simp only [Specifier.splitQuery_of_not_mem plain, nonempty, Bool.false_eq_true, if_false,
      relative, Resolver.importerDirectory, Resolve.isDirectory_eq_false_of_isFile file, isParent,
      Option.getD_some, default, baseOf]
    cases tryCandidate? resolver.tree defaultExtensions
      (Path.clean (Path.join parent specifier)) <;> simp
  obtain ⟨mem, isModule⟩ := List.mem_filter.mp (List.mem_of_find?_eq_some found)
  rw [walked]
  rcases placed.cases_of_mem_candidates mem isModule with ⟨rest, sheet⟩ |
    ⟨extension, listed, rest, named⟩
  · exact placed.tryCandidate?_of_sheet sheet found
  · by_cases isPlain : extension ∈ plainExtensions
    · exact placed.tryCandidate?_of_plain listed isPlain named found
    · obtain ⟨taken, unshadowed⟩ := placed.tryCandidate?_of_typed listed isPlain named found
      exact iff_of_true taken unshadowed

end StyleGraph.Static
