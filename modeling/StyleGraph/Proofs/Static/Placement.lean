import StyleGraph.Proofs.FileTree
import StyleGraph.Proofs.Static.Denotation

/-!
# Where a project lives

A directory that holds a tree holds the same project as the root of the tree. What a specifier
stands for (`resolve?_under`), what is read of a module (`readSource_under`), the order of
evaluation (`evaluationOrder_under`), the names that a module makes (`naming_under`) and at last its
style sheet (`evaluateFile_under`) are the same in both, except that paths are below the directory.
So two directories that hold a project give the same style sheets and load the same modules
(`evaluateFile_home`).

The project must not lead out of its directory. It is not enough that no import leads above it: for
an import of the directory itself the names of files beside the directory are tried
(`evaluateFile_besideModule`), so no such file may be there (`Alone`).
-/

set_option autoImplicit false

namespace StyleGraph.Static

open StyleGraph.Path (IsName rooted relativeOf staysBelow)

/-! ## Paths below a directory -/

/-- A path from the root, put below a directory. -/
def under (base : List String) (path : String) : String :=
  if base.isEmpty then path else rooted base ++ path

/-- Two paths that lie at the same place below a directory are the same. -/
theorem under_injective (base : List String) : Function.Injective (under base) := by
  intro path other same
  unfold under at same
  split at same
  · exact same
  · exact (String.append_right_inj _).mp same

/-- A path that has a name is moved by its names: those of the directory come in front. -/
theorem under_rooted {base texts : List String} (nonempty : texts ≠ []) :
    under base (rooted texts) = rooted (base ++ texts) := by
  unfold under
  split
  next root => rw [List.isEmpty_iff.mp root, List.nil_append]
  next below =>
    apply String.toList_inj.mp
    rw [String.toList_append, Path.toList_rooted, Path.toList_rooted, Path.toList_rooted,
      List.map_append, Text.joinWith_append _ (by simpa using below) (by simpa using nonempty)]
    simp

/-- A path is that of a place other than the root. -/
def IsPlace (path : String) : Prop :=
  ∃ texts, texts ≠ [] ∧ (∀ text ∈ texts, IsName text) ∧ path = rooted texts

/-! ## Specifiers -/

variable {whole tree : FileTree} {base texts : List String} {text : String}

/-- The candidates of a path below a slash are those of its last name. Only the last name is given
other extensions, so what stands before it plays no part. -/
theorem candidates_append (lead : List Char) (name : String) :
    candidates (String.ofList (lead ++ '/' :: name.toList)) =
      (candidates name).map fun other => String.ofList (lead ++ '/' :: other.toList) := by
  let put (other : String) : String := String.ofList (lead ++ '/' :: other.toList)
  have behind (front : List Char) (extension : String) :
      String.ofList (lead ++ '/' :: front) ++ "." ++ extension =
        put (String.ofList front ++ "." ++ extension) := by
    apply String.toList_inj.mp
    simp [put]
  have added (extension : String) :
      put name ++ "." ++ extension = put (name ++ "." ++ extension) := by
    simp only [put, behind, String.ofList_toList]
  have absent : ∀ tail ∈ [".js", ".mjs", ".cjs", ".jsx"], '/' ∉ tail.toList := by decide
  have whole : (put name).toList = lead ++ '/' :: name.toList := String.toList_ofList
  change candidates (put name) = (candidates name).map put
  simp only [candidates, List.map_append, List.map_cons, List.map_map, List.map_flatMap]
  refine congrArg₂ _ (congrArg _ (List.map_congr_left fun extension _ => added extension)) ?_
  refine List.flatMap_congr fun tail listed => ?_
  rw [whole, Text.stripEnd?_append_cons (absent tail listed)]
  cases Text.stripEnd? tail.toList name.toList with
  | none => rfl
  | some stem => simp only [Option.map_some, List.map_cons, List.map_nil, behind]

/-- Which files an import may mean is said by the last name alone, so it does not depend on the
directory. -/
theorem candidates_rooted (texts : List String) (text : String) :
    candidates (rooted (texts ++ [text])) =
      (candidates text).map fun other => rooted (texts ++ [other]) := by
  obtain ⟨lead, leads⟩ := Path.exists_lead_rooted texts
  have written (other : String) :
      rooted (texts ++ [other]) = String.ofList (lead ++ '/' :: other.toList) := by
    rw [← leads, String.ofList_toList]
  simp only [written, candidates_append]

/-- The candidates of a name are names. -/
theorem isName_of_mem_candidates {other : String} (named : IsName text)
    (mem : other ∈ candidates text) : IsName other := by
  rcases extends_of_mem_candidates mem with rfl | ⟨stem, tail, ending, cut, -, absent, long, rfl⟩
  · exact named
  · have slashless := named.1
    rw [cut] at slashless
    refine Path.isName_of_three_le ?_ (by simp; omega)
    simpa [absent] using fun mem => slashless (List.mem_append_left _ mem)

/-- The file name of a path is its last name. -/
theorem fileName?_under (baseNamed : ∀ text ∈ base, IsName text)
    (named : ∀ text ∈ texts, IsName text) (nonempty : texts ≠ []) :
    Path.fileName? (rooted (base ++ texts)) = Path.fileName? (rooted texts) := by
  have all : ∀ text ∈ base ++ texts, IsName text := List.forall_mem_append.mpr ⟨baseNamed, named⟩
  rw [Path.fileName?_rooted all, Path.fileName?_rooted named,
    List.getLast?_append_of_ne_nil _ nonempty]

/-- The root is not the name of a module, whatever is put behind it. -/
theorem not_isModulePath_candidates_root :
    ∀ path ∈ candidates (rooted []), isModulePath path = false := by
  decide +kernel

/-- Whether a specifier is one that is resolved from the directory of its importer. -/
def isLocal (specifier : String) : Bool :=
  Text.startsWith "./".toList specifier.toList || Text.startsWith "../".toList specifier.toList

/-- A specifier that leads to a file of the project is relative. -/
theorem isAbsolute_of_isLocal {specifier : String} (leads : isLocal specifier = true) :
    Path.isAbsolute specifier = false := by
  rcases Bool.or_eq_true_iff.mp leads with begins | begins <;>
    · obtain ⟨rest, chars⟩ := Text.startsWith_iff.mp begins
      rw [Path.isAbsolute, chars]
      rfl

/-- What a specifier stands for, by the place that its pieces lead to. So resolving depends on the
names of the place only, not on how paths to it are written. -/
theorem resolve?_rooted (tree : FileTree) (named : ∀ text ∈ texts, IsName text)
    (last : IsName text) (specifier : String) :
    resolve? tree (rooted (texts ++ [text])) specifier =
      if isLocal specifier = true then
        (candidates (rooted (Path.follow texts (Text.cutAll '/' specifier.toList)))).find?
          fun path => isModulePath path && tree.isFile path
      else none := by
  unfold resolve?
  change (if isLocal specifier = true then _ else _) = _
  split
  next leads =>
    rw [Path.parent?_rooted named last, Option.bind_eq_bind, Option.bind_some,
      Path.clean_join_rooted named (isAbsolute_of_isLocal leads)]
  next => rfl

/-- No file beside a directory is a module whose name is tried for the directory, so what imports
the directory itself imports nothing. -/
def Alone (whole : FileTree) (base : List String) : Prop :=
  ∀ path ∈ candidates (rooted base), isModulePath path = true → whole.isFile path = false

instance (whole : FileTree) (base : List String) : Decidable (Alone whole base) :=
  inferInstanceAs (Decidable (∀ path ∈ candidates (rooted base), _))

/-- Of files with the same names the same one is found first. Being a file and being a module are
questions about the last name and about what lies below, which both trees answer alike. -/
theorem find?_under (holds : whole.Holds base tree) (baseNamed : ∀ text ∈ base, IsName text)
    (named : ∀ text ∈ texts, IsName text) {names : List String}
    (allNamed : ∀ name ∈ names, IsName name) :
    ((names.map fun name => rooted (base ++ (texts ++ [name]))).find?
        fun path => isModulePath path && whole.isFile path) =
      ((names.map fun name => rooted (texts ++ [name])).find?
        fun path => isModulePath path && tree.isFile path).map (under base) := by
  induction names with
  | nil => rfl
  | cons name names ih =>
    have own := allNamed name List.mem_cons_self
    have here : ∀ text ∈ texts ++ [name], IsName text :=
      List.forall_mem_append.mpr ⟨named, List.forall_mem_singleton.mpr own⟩
    have filled : texts ++ [name] ≠ [] := List.concat_ne_nil name texts
    have same : (isModulePath (rooted (base ++ (texts ++ [name]))) &&
          whole.isFile (rooted (base ++ (texts ++ [name])))) =
        (isModulePath (rooted (texts ++ [name])) && tree.isFile (rooted (texts ++ [name]))) := by
      rw [holds.isFile baseNamed here filled, isModulePath, fileName?_under baseNamed here filled,
        isModulePath]
    rw [List.map_cons, List.map_cons, List.find?_cons, List.find?_cons, same]
    split
    next => rw [Option.map_some, under_rooted filled]
    next => exact ih fun other mem => allNamed other (List.mem_cons_of_mem _ mem)

/-- **A specifier stands for the same place** below the directory. The specifier must not climb out
of the directory, since above it the two trees have nothing in common. -/
theorem resolve?_under (holds : whole.Holds base tree) (alone : Alone whole base)
    (baseNamed : ∀ text ∈ base, IsName text) (named : ∀ text ∈ texts, IsName text)
    (last : IsName text) {specifier : String}
    (stays : isLocal specifier = true →
      staysBelow texts (Text.cutAll '/' specifier.toList) = true) :
    resolve? whole (rooted (base ++ (texts ++ [text]))) specifier =
      (resolve? tree (rooted (texts ++ [text])) specifier).map (under base) := by
  have all : ∀ text ∈ base ++ texts, IsName text := List.forall_mem_append.mpr ⟨baseNamed, named⟩
  rw [← List.append_assoc, resolve?_rooted whole all last, resolve?_rooted tree named last]
  split
  next leads =>
    have arrivesNamed : ∀ text ∈ Path.follow texts (Text.cutAll '/' specifier.toList),
        IsName text :=
      Path.isName_of_mem_follow (fun _ mem => Text.not_mem_of_mem_cutAll mem) named
    rw [Path.follow_append base (stays leads)]
    generalize Path.follow texts (Text.cutAll '/' specifier.toList) = place at arrivesNamed ⊢
    cases place using List.reverseRecOn with
    | nil =>
      -- neither the directory nor the root is a module
      have noneWhole : ((candidates (rooted (base ++ []))).find?
          fun path => isModulePath path && whole.isFile path) = none := by
        rw [List.append_nil]
        refine List.find?_eq_none.mpr fun path mem accepted => ?_
        obtain ⟨isModule, isFile⟩ := Bool.and_eq_true_iff.mp accepted
        rw [alone path mem isModule] at isFile
        cases isFile
      have none : ((candidates (rooted [])).find?
          fun path => isModulePath path && tree.isFile path) = none := by
        refine List.find?_eq_none.mpr fun path mem accepted => ?_
        rw [not_isModulePath_candidates_root path mem] at accepted
        cases accepted
      rw [noneWhole, none, Option.map_none]
    | append_singleton front name _ =>
      have frontNamed : ∀ text ∈ front, IsName text := fun text mem =>
        arrivesNamed text (by simp [mem])
      have own : IsName name := arrivesNamed name (by simp)
      rw [← List.append_assoc, candidates_rooted, candidates_rooted]
      simp only [List.append_assoc]
      exact find?_under holds baseNamed frontNamed fun _ mem => isName_of_mem_candidates own mem
  next => rfl

/-! ## Modules -/

/-- The same module, with the paths that it links to below the directory. -/
def Source.under (base : List String) (source : Source) : Source :=
  { source with links := source.links.map fun link => (link.1, Static.under base link.2) }

/-- The same fault of the module below the directory. -/
def ProjectFault.under (base : List String) : ProjectFault → ProjectFault
  | .unread path cause => .unread (Static.under base path) cause
  | .unreadable path => .unreadable (Static.under base path)
  | .faulty path cause => .faulty (Static.under base path) cause

/-- The same outcome below the directory. -/
def outcomeUnder {α : Type} (base : List String) (change : α → α) :
    Except ProjectFault α → Except ProjectFault α
  | .ok value => .ok (change value)
  | .error fault => .error (fault.under base)

/-- Whether no relative import of a file leads above the root. -/
def importsStay (file : List String × Content) : Bool :=
  match file.2 with
  | .undecodable => true
  | .text text =>
    ((Script.importedSources? text (rooted file.1)).getD []).all fun specifier =>
      !isLocal specifier || staysBelow file.1.dropLast (Text.cutAll '/' specifier.toList)

/-- No relative import of a tree leads above its root. -/
def Stays (tree : FileTree) : Prop := ∀ file ∈ tree.files, importsStay file = true

instance (tree : FileTree) : Decidable (Stays tree) :=
  inferInstanceAs (Decidable (∀ file ∈ tree.files, _))

/-- What is read from a clean path stands in the list of the files. So a condition on all files of a
tree holds of every source that is read. -/
theorem mem_files_of_readText {value : String} (named : ∀ text ∈ texts, IsName text)
    (read : tree.readText (rooted texts) = .ok value) : (texts, .text value) ∈ tree.files := by
  have found : tree.lookup (rooted texts) = .ok (.file (.text value)) := by
    unfold FileTree.readText at read
    split at read <;> cases read
    assumption
  obtain ⟨-, -, there⟩ := FileTree.open_names found
  rw [Path.names_rooted named, FileTree.place?] at there
  split at there
  next file content search =>
    cases there
    have same := List.find?_some search
    rw [decide_eq_true_eq] at same
    exact same ▸ List.mem_of_find?_eq_some search
  next => split at there <;> cases there

/-- The kind of script that a path names is told by its last name. -/
theorem ofPath?_under (baseNamed : ∀ text ∈ base, IsName text)
    (named : ∀ text ∈ texts, IsName text) (nonempty : texts ≠ []) :
    Script.Flavor.ofPath? (rooted (base ++ texts)) = Script.Flavor.ofPath? (rooted texts) := by
  simp only [Script.Flavor.ofPath?, Path.extension?, fileName?_under baseNamed named nonempty]

/-- **A module is read as the same** below the directory. The text is the same; only the paths that
its links lead to are longer by the base. -/
theorem readSource_under (holds : whole.Holds base tree) (alone : Alone whole base)
    (baseNamed : ∀ text ∈ base, IsName text) (stays : Stays tree)
    (named : ∀ text ∈ texts, IsName text) (nonempty : texts ≠ []) :
    readSource whole (rooted (base ++ texts)) =
      outcomeUnder base (Source.under base) (readSource tree (rooted texts)) := by
  have scanned (text : String) : Script.importedSources? text (rooted (base ++ texts)) =
      Script.importedSources? text (rooted texts) := by
    simp only [Script.importedSources?, Script.moduleFlavor, ofPath?_under baseNamed named nonempty]
  unfold readSource
  rw [holds.readText baseNamed named nonempty]
  cases read : tree.readText (rooted texts) with
  | error cause => simp only [outcomeUnder, ProjectFault.under, under_rooted nonempty]
  | ok text =>
    simp only [scanned]
    cases found : Script.importedSources? text (rooted texts) with
    | none => simp only [outcomeUnder, ProjectFault.under, under_rooted nonempty]
    | some specifiers =>
      have kept := stays _ (mem_files_of_readText named read)
      simp only [importsStay, found, Option.getD_some, List.all_eq_true, Bool.or_eq_true,
        Bool.not_eq_true'] at kept
      simp only [outcomeUnder, Source.under, Except.ok.injEq, Source.mk.injEq, true_and]
      rw [List.map_filterMap]
      refine List.filterMap_congr fun specifier mem => ?_
      obtain ⟨front, name, rfl⟩ : ∃ front name, texts = front ++ [name] :=
        ⟨_, _, (List.dropLast_append_getLast nonempty).symm⟩
      have staysHere (leads : isLocal specifier = true) :
          staysBelow front (Text.cutAll '/' specifier.toList) = true := by
        have below := (kept specifier mem).resolve_left (by simp [leads])
        rwa [List.dropLast_concat] at below
      rw [resolve?_under holds alone baseNamed (fun text mem => named text (by simp [mem]))
        (named name (by simp)) staysHere]
      simp only [Option.map_map, Function.comp_def]

/-! ## Reading -/

/-- The same modules below the directory. -/
def Sources.under (base : List String) (sources : Sources) : Sources :=
  sources.map fun entry => (Static.under base entry.1, entry.2.under base)

/-- The sources of a moved project are at the moved paths. -/
theorem Sources.paths_under (base : List String) (sources : Sources) :
    (sources.under base).paths = sources.paths.map (Static.under base) := by
  simp only [Sources.paths, Sources.under, List.map_map, Function.comp_def]

/-- What a moved module imports is moved with it. -/
theorem Source.targets_under (base : List String) (source : Source) :
    (source.under base).targets = source.targets.map (Static.under base) := by
  simp only [Source.targets, Source.under, List.map_map, Function.comp_def]

/-- A link leads to a place other than the root. -/
theorem isPlace_of_mem_targets {path target : String} {source : Source}
    (read : readSource tree path = .ok source) (mem : target ∈ source.targets) :
    IsPlace target := by
  obtain ⟨link, listed, rfl⟩ := List.mem_map.mp mem
  obtain ⟨file, cleaned⟩ := clean_of_resolve? (resolve?_of_mem_links read listed)
  rw [← cleaned] at file ⊢
  exact FileTree.exists_rooted_of_isFile_clean file

/-- **Reading goes on in the same way** below the directory. It is by the rules of reading, each of
which asks the tree about one path of the list. -/
theorem reads_under (holds : whole.Holds base tree) (alone : Alone whole base)
    (baseNamed : ∀ text ∈ base, IsName text) (stays : Stays tree) {pending : List String}
    {read : Sources} {result : Except ProjectFault Sources} (reads : Reads tree pending read result)
    (places : ∀ path ∈ pending, IsPlace path) :
    Reads whole (pending.map (under base)) (read.under base)
      (outcomeUnder base (Sources.under base) result) := by
  have same {path : String} (place : IsPlace path) :
      readSource whole (under base path) =
        outcomeUnder base (Source.under base) (readSource tree path) := by
    obtain ⟨texts, nonempty, named, rfl⟩ := place
    rw [under_rooted nonempty, readSource_under holds alone baseNamed stays named nonempty]
  have known {path : String} {read : Sources} :
      under base path ∈ (read.under base).paths ↔ path ∈ read.paths := by
    rw [Sources.paths_under, List.mem_map_of_injective (under_injective base)]
  induction reads with
  | done => exact .done
  | again seen _ ih =>
    exact .again (known.mpr seen) (ih fun path mem => places path (List.mem_cons_of_mem _ mem))
  | fail new fails =>
    refine .fail (mt known.mp new) ?_
    rw [same (places _ List.mem_cons_self), fails]
    rfl
  | @next path rest read source result new succeeds _ ih =>
    have later := ih fun other mem => (List.mem_append.mp mem).elim
      (fun mem => isPlace_of_mem_targets succeeds (List.mem_reverse.mp mem))
      (fun mem => places other (List.mem_cons_of_mem _ mem))
    have read : readSource whole (under base path) = .ok (source.under base) := by
      rw [same (places _ List.mem_cons_self), succeeds]
      rfl
    refine .next (mt known.mp new) read ?_
    rw [Source.targets_under]
    simpa only [Sources.under, List.map_append, List.map_reverse, List.map_cons, List.map_nil]
      using later

/-- What is read from a place are places. -/
theorem isPlace_of_reads {entry path : String} {sources : Sources}
    (reads : Reads tree [entry] [] (.ok sources)) (place : IsPlace entry)
    (mem : path ∈ sources.paths) : IsPlace path := by
  have linked : Linked sources entry path :=
    (reads.linked (fun other begun => List.mem_singleton.mp begun ▸ .entry) path mem).resolve_left
      List.not_mem_nil
  cases linked with
  | entry => exact place
  | step _ found listed => exact isPlace_of_mem_targets (reads.readSource_of_get? found) listed

/-! ## The order of evaluation -/

/-- The source at a moved path is the moved source, since moving is injective. -/
theorem get?_under (base : List String) (sources : Sources) (path : String) :
    (sources.under base).get? (under base path) = (sources.get? path).map (Source.under base) := by
  simp only [Sources.get?, Sources.under, List.find?_map, Option.map_map, Function.comp_def,
    (under_injective base).eq_iff]

/-- A state of the search, below the directory. -/
def stateUnder (base : List String) (state : List String × List String) :
    List String × List String :=
  (state.1.map (under base), state.2.map (under base))

/-- **The search takes the same turns** below the directory. Marks are compared as paths, and
putting the base before two paths keeps them different. -/
theorem orderFrom_under (base : List String) (sources : Sources) (depth : Nat) (path : String)
    (state : List String × List String) :
    orderFrom (sources.under base) depth (under base path) (stateUnder base state) =
      stateUnder base (orderFrom sources depth path state) := by
  induction depth generalizing path state with
  | zero => rfl
  | succ depth ih =>
    obtain ⟨seen, order⟩ := state
    have marked : (seen.map (under base)).contains (under base path) = seen.contains path := by
      rw [Bool.eq_iff_iff, List.contains_iff_mem, List.contains_iff_mem,
        List.mem_map_of_injective (under_injective base)]
    have links : (((sources.get? path).map (Source.under base)).map Source.links).getD [] =
        (((sources.get? path).map Source.links).getD []).map fun link =>
          (link.1, under base link.2) := by
      cases sources.get? path <;> rfl
    simp only [stateUnder, orderFrom, marked, get?_under, links, List.foldl_map]
    split
    next => rfl
    next =>
      have steps (links : List (String × String)) :
          links.foldl (fun state link =>
              orderFrom (sources.under base) depth (under base link.2) state)
            (stateUnder base (path :: seen, order)) =
            stateUnder base (links.foldl (fun state link =>
              orderFrom sources depth link.2 state) (path :: seen, order)) :=
        List.foldl_hom (stateUnder base) fun state link => ih link.2 state
      simp only [stateUnder, List.map_cons] at steps
      simp only [steps, List.map_append, List.map_cons, List.map_nil]

/-- The order of evaluation is that of the project before it was moved. The search only ever
compares paths. -/
theorem evaluationOrder_under (base : List String) (sources : Sources) (entry : String) :
    evaluationOrder (sources.under base) (under base entry) =
      (evaluationOrder sources entry).map (under base) := by
  have length : (sources.under base).length = sources.length := List.length_map _
  rw [evaluationOrder, evaluationOrder, length]
  exact congrArg Prod.snd (orderFrom_under base sources _ entry ([], []))

/-! ## Evaluating -/

/-- The same results below the directory. -/
def Results.under (base : List String) (results : Results) : Results :=
  results.map fun result => (Static.under base result.1, result.2)

/-- A result is found at the moved path just if it was found before. -/
theorem Results.get?_under (base : List String) (results : Results) (path : String) :
    (results.under base).get? (Static.under base path) = results.get? path := by
  simp only [Results.get?, Results.under, List.find?_map, Option.map_map, Function.comp_def,
    (under_injective base).eq_iff]

/-- Imports are bound to the same exports. -/
theorem environment_under (base : List String) (results : Results)
    (links : List (String × String)) :
    environment (results.under base) (links.map fun link => (link.1, under base link.2)) =
      environment results links := by
  simp only [environment, ← List.map_reverse, List.filterMap_map, Function.comp_def,
    Results.get?_under]

/-- **A module's names are made from its path inside the project**, wherever the project is. -/
theorem naming_under (baseNamed : ∀ text ∈ base, IsName text)
    (named : ∀ text ∈ texts, IsName text) (nonempty : texts ≠ []) :
    Naming.ofPath (rooted (base ++ texts)) (rooted base) =
      Naming.ofPath (rooted texts) (rooted []) := by
  have fromRoot : Path.stripBase? (rooted []) (rooted texts) = some (relativeOf texts) :=
    Path.stripBase?_rooted (fun _ mem => nomatch mem) named nonempty
  simp only [Naming.ofPath, fileName?_under baseNamed named nonempty,
    Path.stripBase?_rooted baseNamed named nonempty, fromRoot, Option.getD_some]

/-- A module is evaluated the same below a directory as below the root, if that directory is the
project: its path inside the project is what its names are made of. -/
theorem evaluateModule_under (baseNamed : ∀ text ∈ base, IsName text)
    (named : ∀ text ∈ texts, IsName text) (nonempty : texts ≠ []) (source : String)
    (environment : Environment) :
    evaluateModule source (rooted (base ++ texts)) (rooted base) environment =
      evaluateModule source (rooted texts) (rooted []) environment := by
  rw [evaluateModule, evaluateModule, ofPath?_under baseNamed named nonempty,
    naming_under baseNamed named nonempty]

/-- **Modules evaluate to the same** below the directory, one after the other. A module sees the
base only in its path from the project's directory, which moves along with it, so even the generated
names are the same. -/
theorem evaluateAll_under (baseNamed : ∀ text ∈ base, IsName text) {sources : Sources}
    (places : ∀ path ∈ sources.paths, IsPlace path) (order : List String) (results : Results) :
    evaluateAll (rooted base) (sources.under base) (order.map (under base)) (results.under base) =
      outcomeUnder base (Results.under base)
        (evaluateAll (rooted []) sources order results) := by
  induction order generalizing results with
  | nil => rfl
  | cons path rest ih =>
    rw [List.map_cons, evaluateAll, evaluateAll, get?_under]
    cases found : sources.get? path with
    | none => exact ih results
    | some source =>
      obtain ⟨texts, nonempty, named, rfl⟩ :=
        places path (Sources.mem_paths_of_mem (Sources.mem_of_get? found))
      simp only [Option.map_some, Source.under, environment_under]
      rw [under_rooted nonempty, evaluateModule_under baseNamed named nonempty]
      cases evaluateModule source.text (rooted texts) (rooted []) (environment results source.links)
        with
      | error failure =>
        cases failure <;> simp only [outcomeUnder, ProjectFault.under, under_rooted nonempty]
      | ok evaluated =>
        have next := ih (results ++ [(rooted texts, evaluated)])
        rwa [Results.under, List.map_append, List.map_cons, List.map_nil,
          under_rooted nonempty] at next

/-- The same style sheet, with the modules that were loaded below the directory. -/
def Compiled.under (base : List String) (compiled : Compiled) : Compiled :=
  { compiled with loaded := compiled.loaded.map (Static.under base) }

/-- **A module is compiled to the same** below a directory that holds its project. Reading, ordering
and evaluating were moved one by one, and a fault names its file below the base. -/
theorem evaluateFile_under (holds : whole.Holds base tree) (alone : Alone whole base)
    (baseNamed : ∀ text ∈ base, IsName text) (stays : Stays tree)
    (named : ∀ text ∈ texts, IsName text) (nonempty : texts ≠ []) :
    evaluateFile whole (rooted (base ++ texts)) (rooted base) =
      outcomeUnder base (Compiled.under base) (evaluateFile tree (rooted texts) (rooted [])) := by
  have place : IsPlace (rooted texts) := ⟨texts, nonempty, named, rfl⟩
  have reads := reads_readAll tree (rooted texts)
  have below := reads_under holds alone baseNamed stays reads
    fun path mem => List.mem_singleton.mp mem ▸ place
  rw [← under_rooted nonempty, evaluateFile, evaluateFile]
  have same : Sources.readAll whole [under base (rooted texts)] [] =
      outcomeUnder base (Sources.under base) (Sources.readAll tree [rooted texts] []) :=
    below.readAll_eq
  rw [same]
  cases read : Sources.readAll tree [rooted texts] [] with
  | error fault => rfl
  | ok sources =>
    rw [read] at reads
    have evaluated := evaluateAll_under baseNamed (fun path mem => isPlace_of_reads reads place mem)
      (evaluationOrder sources (rooted texts)) []
    rw [← evaluationOrder_under] at evaluated
    change evaluateAll (rooted base) (sources.under base)
      (evaluationOrder (sources.under base) (under base (rooted texts))) [] = _ at evaluated
    have others : ((evaluationOrder sources (rooted texts)).map (under base)).filter
        (· != under base (rooted texts)) =
        ((evaluationOrder sources (rooted texts)).filter (· != rooted texts)).map (under base) := by
      rw [List.filter_map]
      refine congrArg _ (List.filter_congr fun path _ => ?_)
      simp only [Function.comp, bne, (under_injective base).beq_eq]
    simp only [outcomeUnder, bind, Except.bind, evaluated]
    cases evaluateAll (rooted []) sources (evaluationOrder sources (rooted texts)) [] with
    | error fault => rfl
    | ok results =>
      simp only [pure, Except.pure, Compiled.under, Results.get?_under, evaluationOrder_under,
        others]

/-! ## Two homes -/

/-- A directory is the home of a project: everything of the project has its place below it, and what
imports the directory itself imports nothing. -/
structure IsHome (whole : FileTree) (directory : String) (tree : FileTree) : Prop where
  absolute : Path.isAbsolute directory = true
  cleaned : Path.clean directory = directory
  holds : whole.Holds (Path.names directory) tree
  alone : Alone whole (Path.names directory)

/-- The path that leads to a place from the root. -/
def fromRoot (path : String) : String := String.ofList path.toList.tail

/-- The path from the root to a file has the names of the file. -/
theorem fromRoot_rooted (texts : List String) : fromRoot (rooted texts) = relativeOf texts := by
  rw [fromRoot, Path.toList_rooted]
  rfl

/-- What cannot be read is not evaluated. -/
theorem exists_fault_of_readText {path project : String} {cause : ReadFault}
    (unread : tree.readText path = .error cause) :
    ∃ fault, evaluateFile tree path project = .error fault := by
  have fails : readSource tree path = .error (.unread path cause) := by rw [readSource, unread]
  have reads : Reads tree [path] [] (.error (.unread path cause)) := .fail List.not_mem_nil fails
  exact ⟨.unread path cause, by rw [evaluateFile, reads.readAll_eq]; rfl⟩

/-- What is loaded for a place are places. -/
theorem isPlace_of_mem_loaded {entry project path : String} {compiled : Compiled}
    (evaluates : evaluateFile tree entry project = .ok compiled) (mem : path ∈ compiled.loaded) :
    IsPlace path := by
  obtain ⟨reached, differs⟩ := (mem_loaded_iff evaluates).mp mem
  rcases reached.cases_tail with same | ⟨importer, -, source, read, linked⟩
  · exact absurd same differs
  · exact isPlace_of_mem_targets read linked

namespace IsHome

variable {directory : String}

/-- The directory of a project is known by its names. -/
theorem eq_rooted (home : IsHome whole directory tree) :
    directory = rooted (Path.names directory) := by
  rw [← Path.clean_of_isAbsolute home.absolute, home.cleaned]

/-- A place of the project is behind the directory. -/
theorem join_fromRoot (home : IsHome whole directory tree) {path : String} (place : IsPlace path) :
    Path.join directory (fromRoot path) = under (Path.names directory) path := by
  obtain ⟨texts, nonempty, named, rfl⟩ := place
  have baseNamed := fun text (mem : text ∈ Path.names directory) => Path.isName_of_mem_names mem
  rw [fromRoot_rooted, under_rooted nonempty, ← Path.join_relativeOf baseNamed named nonempty,
    ← home.eq_rooted]

/-- **At home** a module is compiled as at the root of the project's own tree. The names of classes
are made from the path inside the project, so moving the project does not change them. -/
theorem evaluateFile_eq (home : IsHome whole directory tree) (stays : Stays tree)
    (named : ∀ text ∈ texts, IsName text) (nonempty : texts ≠ []) :
    evaluateFile whole (Path.join directory (relativeOf texts)) directory =
      match evaluateFile tree (rooted texts) (rooted []) with
      | .ok compiled =>
        .ok ⟨compiled.css, (compiled.loaded.map fromRoot).map (Path.join directory)⟩
      | .error fault => .error (fault.under (Path.names directory)) := by
  have baseNamed := fun text (mem : text ∈ Path.names directory) => Path.isName_of_mem_names mem
  have below := evaluateFile_under home.holds home.alone baseNamed stays named nonempty
  rw [← Path.join_relativeOf baseNamed named nonempty, ← home.eq_rooted] at below
  rw [below]
  cases evaluates : evaluateFile tree (rooted texts) (rooted []) with
  | error fault => rfl
  | ok compiled =>
    have loaded : (compiled.loaded.map fromRoot).map (Path.join directory) =
        compiled.loaded.map (under (Path.names directory)) := by
      rw [List.map_map]
      exact List.map_congr_left fun path mem =>
        home.join_fromRoot (isPlace_of_mem_loaded evaluates mem)
    simp only [outcomeUnder, Compiled.under, loaded]

end IsHome

/-- **Where a project lives makes no difference.** If no relative import of a project leads above
it, then in two directories that are its home a module is compiled to the same style sheet, with the
same modules loaded for it, or it fails in both. -/
theorem evaluateFile_home {one two : FileTree} {here there entry : String} (stays : Stays tree)
    (home : IsHome one here tree) (other : IsHome two there tree)
    (relative : Path.isAbsolute entry = false) (cleaned : Path.clean entry = entry)
    (inside : .parent ∉ Path.parts entry) :
    (∃ fault otherFault, evaluateFile one (Path.join here entry) here = .error fault ∧
        evaluateFile two (Path.join there entry) there = .error otherFault) ∨
      ∃ (css : String) (loaded : List String),
        evaluateFile one (Path.join here entry) here =
          .ok ⟨css, loaded.map (Path.join here)⟩ ∧
        evaluateFile two (Path.join there entry) there =
          .ok ⟨css, loaded.map (Path.join there)⟩ := by
  rcases Path.exists_relativeOf_of_clean relative cleaned inside with
    rfl | ⟨texts, nonempty, named, rfl⟩
  · -- the directory itself is no module
    have unread {whole : FileTree} {directory : String} (home : IsHome whole directory tree) :
        whole.readText (Path.join directory ".") = .error .isDirectory := by
      rw [home.eq_rooted]
      exact home.holds.readText_self fun text mem => Path.isName_of_mem_names mem
    obtain ⟨fault, fails⟩ := exists_fault_of_readText (unread home)
    obtain ⟨otherFault, otherFails⟩ := exists_fault_of_readText (unread other)
    exact .inl ⟨fault, otherFault, fails, otherFails⟩
  · rw [home.evaluateFile_eq stays named nonempty, other.evaluateFile_eq stays named nonempty]
    cases evaluateFile tree (rooted texts) (rooted []) with
    | error fault => exact .inl ⟨_, _, rfl, rfl⟩
    | ok compiled => exact .inr ⟨compiled.css, compiled.loaded.map fromRoot, rfl, rfl⟩

/-- A project with a module that imports one above it. -/
def nested : FileTree where
  files :=
    [(["ui", "a.css.ts"], .text "import {v} from '../v.css';style({ top: v });"),
      (["v.css.ts"], .text "export const v = '0';")]

/-- A home of the same project, with something else beside it. -/
def nestedHome : FileTree where
  files :=
    [(["h", "ui", "a.css.ts"], .text "import {v} from '../v.css';style({ top: v });"),
      (["v.css.ts"], .text "export const v = '1';"),
      (["h", "v.css.ts"], .text "export const v = '0';")]

/-- The tree with the same files as the other one, below the root. -/
private theorem evaluateFile_nested : evaluateFile nested "/ui/a.css.ts" "/" =
    .ok ⟨".a__16e3f085 \x7b\n  top: 0;\n\x7d\n", ["/v.css.ts"]⟩ := by
  have entry : readSource nested "/ui/a.css.ts" =
      .ok ⟨"import {v} from '../v.css';style({ top: v });", [("../v.css", "/v.css.ts")]⟩ := by
    decide +kernel
  have imported : readSource nested "/v.css.ts" = .ok ⟨"export const v = '0';", []⟩ := by
    decide +kernel
  have reads : Reads nested ["/ui/a.css.ts"] [] (.ok _) :=
    .next List.not_mem_nil entry (.next (by decide) imported .done)
  rw [evaluateFile, reads.readAll_eq]
  decide +kernel

/-- The class has the name in its home that it has at the root. -/
theorem evaluateFile_home_nested :
    ∃ loaded : List String, loaded.map (Path.join "/") = ["/v.css.ts"] ∧
      evaluateFile nestedHome "/h/ui/a.css.ts" "/h" =
        .ok ⟨".a__16e3f085 \x7b\n  top: 0;\n\x7d\n", loaded.map (Path.join "/h")⟩ := by
  have stays : Stays nested := by decide +kernel
  have atRoot : IsHome nested "/" nested :=
    ⟨rfl, by decide, FileTree.holds_root (by decide), by decide +kernel⟩
  have home : IsHome nestedHome "/h" nested :=
    ⟨rfl, by decide, FileTree.holds_of_below (by decide) (by decide) (by decide),
      by decide +kernel⟩
  have relative : Path.isAbsolute "ui/a.css.ts" = false := rfl
  have same := evaluateFile_home stays atRoot home relative (by decide) (by decide)
  have fromRoot : evaluateFile nested (Path.join "/" "ui/a.css.ts") "/" = _ := evaluateFile_nested
  obtain ⟨fault, _, fails, -⟩ | ⟨css, loaded, succeeds, there⟩ := same
  · rw [fromRoot] at fails
    cases fails
  · obtain ⟨rfl, shown⟩ := Compiled.mk.inj (Except.ok.inj (fromRoot.symm.trans succeeds))
    exact ⟨loaded, shown.symm, there⟩

/-! ## Beside the directory -/

/-- A project with a module that imports the directory that it is in. -/
def ownDirectory : FileTree where
  files := [(["a.css.ts"], .text "import './';")]

/-- The directory of the project has the name of a module beside it. -/
def besideModule : FileTree where
  files := [(["h", "x.css", "a.css.ts"], .text "import './';"), (["h", "x.css.ts"], .text "x();")]

/-- The same project with nothing beside it. -/
def besideNothing : FileTree where
  files := [(["h", "y", "a.css.ts"], .text "import './';")]

/-- **A module beside the directory is imported**, though no import leads above the directory. If
that module has a fault, the evaluation fails in the one directory, and not in the other. -/
theorem evaluateFile_besideModule :
    Stays ownDirectory ∧
      (Path.isAbsolute "/h/x.css" = true ∧ Path.clean "/h/x.css" = "/h/x.css" ∧
        besideModule.Holds (Path.names "/h/x.css") ownDirectory) ∧
      (Path.isAbsolute "/h/y" = true ∧ Path.clean "/h/y" = "/h/y" ∧
        besideNothing.Holds (Path.names "/h/y") ownDirectory) ∧
      Path.isAbsolute "a.css.ts" = false ∧ Path.clean "a.css.ts" = "a.css.ts" ∧
      evaluateFile besideModule (Path.join "/h/x.css" "a.css.ts") "/h/x.css" =
        .error (.faulty "/h/x.css.ts" (.unknownFunction "x")) ∧
      evaluateFile besideNothing (Path.join "/h/y" "a.css.ts") "/h/y" = .ok ⟨"", []⟩ := by
  have entry : readSource besideModule "/h/x.css/a.css.ts" =
      .ok ⟨"import './';", [("./", "/h/x.css.ts")]⟩ := by
    decide +kernel
  have imported : readSource besideModule "/h/x.css.ts" = .ok ⟨"x();", []⟩ := by decide +kernel
  have apart : readSource besideNothing "/h/y/a.css.ts" = .ok ⟨"import './';", []⟩ := by
    decide +kernel
  have joined : Path.join "/h/x.css" "a.css.ts" = "/h/x.css/a.css.ts" := by decide
  have otherJoined : Path.join "/h/y" "a.css.ts" = "/h/y/a.css.ts" := by decide
  have reads : Reads besideModule ["/h/x.css/a.css.ts"] [] (.ok _) :=
    .next List.not_mem_nil entry (.next (by decide) imported .done)
  have readsApart : Reads besideNothing ["/h/y/a.css.ts"] [] (.ok _) :=
    .next List.not_mem_nil apart .done
  refine ⟨by decide +kernel, ⟨rfl, by decide, ?_⟩, ⟨rfl, by decide, ?_⟩, rfl, by decide, ?_, ?_⟩
  · exact FileTree.holds_of_below (by decide) (by decide) (by decide)
  · exact FileTree.holds_of_below (by decide) (by decide) (by decide)
  · rw [joined, evaluateFile, reads.readAll_eq]
    decide +kernel
  · rw [otherJoined, evaluateFile, readsApart.readAll_eq]
    decide +kernel

end StyleGraph.Static
