import StyleGraph.Proofs.FileTree
import StyleGraph.Proofs.Marks
import StyleGraph.Static.Project

/-!
# Reading modules

Before a CSS-in-TS module is evaluated, it is read together with all that it imports.
`Sources.readAll` is a loop over the modules that are still to be read; `Reads` is its trace.

- **Termination** (`reads_readAll`): a link leads to a file by a path that is clean
  (`clean_of_resolve?`), so only the entry and the tree's own files are ever read, each once.
- **What is read** (`Reads.closed`, `Reads.linked`, `Reads.linked_iff`): with a module the modules
  that it links to, and no module that no chain of links leads to.
- **What the outcome depends on** (`Reads.of_agree`): the shape of the tree, and the texts of the
  modules that were read.
-/

set_option autoImplicit false

namespace StyleGraph.Static

open Relation (ReflTransGen)

variable {tree other : FileTree}

/-! ## Links -/

/-- A path is another one with an extension in place of an end that holds no slash. -/
def Extends (base path : String) : Prop :=
  ∃ stem tail ending, base.toList = stem ++ tail ∧ '/' ∉ tail ∧ '/' ∉ ending ∧
    2 ≤ ending.length ∧ path = String.ofList (stem ++ '.' :: ending)

/-- A base extended in place of its last ending has the stem of the base, which may hold slashes
where the ending may not. -/
theorem extends_of_eq_append {base extension : String} {stem tail : List Char}
    (cut : base.toList = stem ++ tail) (tailAbsent : '/' ∉ tail) (absent : '/' ∉ extension.toList)
    (long : 2 ≤ extension.toList.length) :
    Extends base (String.ofList stem ++ "." ++ extension) := by
  refine ⟨stem, tail, extension.toList, cut, tailAbsent, absent, long, ?_⟩
  apply String.toList_inj.mp
  simp

/-- What a specifier may stand for is a path as it is, or with an extension. Some are the path with
an ending in place of the one it has, the rest with one more. -/
theorem extends_of_mem_candidates {base path : String} (mem : path ∈ candidates base) :
    path = base ∨ Extends base path := by
  unfold candidates at mem
  rcases List.mem_cons.mp mem with same | mem
  · exact .inl same
  refine .inr ?_
  rcases List.mem_append.mp mem with mem | mem
  · obtain ⟨extension, listed, rfl⟩ := List.mem_map.mp mem
    have plain : ∀ extension ∈ scriptExtensions,
        '/' ∉ extension.toList ∧ 2 ≤ extension.toList.length := by decide
    have whole := extends_of_eq_append (List.append_nil base.toList).symm List.not_mem_nil
      (plain extension listed).1 (plain extension listed).2
    rwa [String.ofList_toList] at whole
  · obtain ⟨tail, listed, mem⟩ := List.mem_flatMap.mp mem
    split at mem
    next stem stripped =>
      obtain ⟨extension, typed, rfl⟩ := List.mem_map.mp mem
      have plain : ∀ extension ∈ ["ts", "tsx", "mts", "cts"],
          '/' ∉ extension.toList ∧ 2 ≤ extension.toList.length := by decide
      have tailAbsent : ∀ tail ∈ [".js", ".mjs", ".cjs", ".jsx"], '/' ∉ tail.toList := by decide
      exact extends_of_eq_append (Text.eq_append_of_stripEnd? stripped) (tailAbsent tail listed)
        (plain extension typed).1 (plain extension typed).2
    next => cases mem

/-- A path begins at the root when it does with an extension. -/
theorem isAbsolute_of_extends {base target : String} (extended : Extends base target)
    (absolute : Path.isAbsolute target = true) : Path.isAbsolute base = true := by
  obtain ⟨stem, tail, ending, cut, _, _, _, rfl⟩ := extended
  unfold Path.isAbsolute at absolute ⊢
  rw [String.toList_ofList] at absolute
  rw [cut]
  cases stem with
  | nil => cases absolute
  | cons c stem => exact absolute

/-- A clean path to a file stays clean when it gets an extension. -/
theorem clean_of_extends {path target : String} (extended : Extends (Path.clean path) target)
    (absolute : Path.isAbsolute target = true) : Path.clean target = target := by
  have begins := isAbsolute_of_extends extended absolute
  obtain ⟨stem, tail, ending, cut, tailAbsent, absent, long, rfl⟩ := extended
  obtain ⟨texts, named, written⟩ := Path.exists_rooted_of_isAbsolute_clean begins
  refine Path.clean_stem named (written ▸ cut) tailAbsent ?_ ?_
  · simp [absent]
  · rw [List.length_cons]
    omega

/-- **A link leads to a file, by a clean path.** A candidate is the clean path itself, or that path
with something put behind it. -/
theorem clean_of_resolve? {importer specifier target : String}
    (resolved : resolve? tree importer specifier = some target) :
    tree.isFile target = true ∧ Path.clean target = target := by
  unfold resolve? at resolved
  simp only at resolved
  split at resolved
  · obtain ⟨directory, _, found⟩ := Option.bind_eq_some_iff.mp resolved
    have accepted := List.find?_some found
    have file : tree.isFile target = true := (Bool.and_eq_true_iff.mp accepted).2
    refine ⟨file, ?_⟩
    obtain ⟨content, lookup⟩ := FileTree.exists_lookup_of_isFile file
    have absolute := FileTree.isAbsolute_of_lookup lookup
    rcases extends_of_mem_candidates (List.mem_of_find?_eq_some found) with rfl | extended
    · obtain ⟨texts, named, written⟩ := Path.exists_rooted_of_isAbsolute_clean absolute
      rw [written, Path.clean_rooted named]
    · exact clean_of_extends extended absolute
  · cases resolved

/-- The modules that a module links to. -/
def Source.targets (source : Source) : List String := source.links.map Prod.snd

/-- The specifiers of a module that was read, and which of them are links: those that stand for
CSS-in-TS modules. -/
theorem exists_of_readSource {path : String} {source : Source}
    (read : readSource tree path = .ok source) :
    tree.readText path = .ok source.text ∧ ∃ specifiers,
      Script.importedSources? source.text path = some specifiers ∧
      ∀ link, link ∈ source.links ↔
        link.1 ∈ specifiers ∧ resolve? tree path link.1 = some link.2 := by
  unfold readSource at read
  split at read
  · cases read
  next text reads =>
    split at read
    · cases read
    next specifiers scanned =>
      cases read
      refine ⟨reads, specifiers, scanned, fun link => ?_⟩
      rw [List.mem_filterMap]
      constructor
      · rintro ⟨specifier, mem, found⟩
        obtain ⟨target, resolved, rfl⟩ := Option.map_eq_some_iff.mp found
        exact ⟨mem, resolved⟩
      · rintro ⟨mem, resolved⟩
        exact ⟨link.1, mem, Option.map_eq_some_iff.mpr ⟨link.2, resolved, rfl⟩⟩

/-- A link is a specifier that stands for a CSS-in-TS module. -/
theorem resolve?_of_mem_links {path : String} {source : Source} {link : String × String}
    (read : readSource tree path = .ok source) (mem : link ∈ source.links) :
    resolve? tree path link.1 = some link.2 := by
  obtain ⟨-, specifiers, -, links⟩ := exists_of_readSource read
  exact ((links link).mp mem).2

/-- The modules that a module links to are files of the tree. -/
theorem mem_filePaths_of_mem_targets {path target : String} {source : Source}
    (read : readSource tree path = .ok source) (mem : target ∈ source.targets) :
    target ∈ tree.filePaths := by
  obtain ⟨link, listed, rfl⟩ := List.mem_map.mp mem
  obtain ⟨file, clean⟩ := clean_of_resolve? (resolve?_of_mem_links read listed)
  rw [← clean] at file ⊢
  exact FileTree.mem_filePaths_of_isFile_clean file

/-- A module imports another one. -/
def Imports (tree : FileTree) (path target : String) : Prop :=
  ∃ source, readSource tree path = .ok source ∧ target ∈ source.targets

/-- What a module is read as depends on its text and on the shape of the tree. -/
theorem readSource_congr (same : tree.SameShape other) {path : String}
    (agree : tree.readText path = other.readText path) :
    readSource tree path = readSource other path := by
  have links : resolve? tree = resolve? other := by
    funext importer specifier
    unfold resolve?
    simp only [same.isFile]
  unfold readSource
  rw [agree, links]

/-! ## Sources -/

/-- The paths of the modules that were read. -/
def Sources.paths (sources : Sources) : List String := sources.map Prod.fst

/-- What is found under a path is among the sources. -/
theorem Sources.mem_of_get? {sources : Sources} {path : String} {source : Source}
    (found : sources.get? path = some source) : (path, source) ∈ sources := by
  obtain ⟨entry, search, rfl⟩ := Option.map_eq_some_iff.mp found
  have same : entry.1 = path := by simpa using List.find?_some search
  exact same ▸ List.mem_of_find?_eq_some search

/-- The path of a source is among the paths. -/
theorem Sources.mem_paths_of_mem {sources : Sources} {path : String} {source : Source}
    (mem : (path, source) ∈ sources) : path ∈ sources.paths :=
  List.mem_map.mpr ⟨(path, source), mem, rfl⟩

/-- A path is found exactly if it is among them. -/
theorem Sources.isSome_get?_iff {sources : Sources} {path : String} :
    (sources.get? path).isSome = true ↔ path ∈ sources.paths := by
  simp only [get?, Option.isSome_map, List.find?_isSome, decide_eq_true_eq, paths, List.mem_map]

/-- A module that was read is found, whatever was read after it. -/
theorem Sources.get?_append_cons {read more : Sources} {path : String} {source : Source}
    (new : path ∉ read.paths) :
    Sources.get? (read ++ (path, source) :: more) path = some source := by
  have passed : read.find? (fun entry => entry.1 = path) = none := by
    refine List.find?_eq_none.mpr fun entry mem => ?_
    simp only [decide_eq_true_eq]
    rintro rfl
    exact new (List.mem_map_of_mem mem)
  rw [get?, List.find?_append, passed]
  simp

/-! ## The loop, module by module -/

/-- The loop over the modules that are still to be read ends. -/
inductive Reads (tree : FileTree) : List String → Sources → Except ProjectFault Sources → Prop
  | done {read : Sources} : Reads tree [] read (.ok read)
  /-- A module that was read before. -/
  | again {path : String} {rest : List String} {read : Sources}
      {result : Except ProjectFault Sources} (known : path ∈ read.paths)
      (reads : Reads tree rest read result) : Reads tree (path :: rest) read result
  | fail {path : String} {rest : List String} {read : Sources} {fault : ProjectFault}
      (new : path ∉ read.paths) (fails : readSource tree path = .error fault) :
      Reads tree (path :: rest) read (.error fault)
  | next {path : String} {rest : List String} {read : Sources} {source : Source}
      {result : Except ProjectFault Sources} (new : path ∉ read.paths)
      (succeeds : readSource tree path = .ok source)
      (reads : Reads tree (source.targets.reverse ++ rest) (read ++ [(path, source)]) result) :
      Reads tree (path :: rest) read result

/-- The relation has one outcome, the one the reader computes. By induction along the relation,
which takes the cases of the reader. -/
theorem Reads.readAll_eq {pending : List String} {read : Sources}
    {result : Except ProjectFault Sources} (reads : Reads tree pending read result) :
    read.readAll tree pending = result := by
  induction reads with
  | done => rw [Sources.readAll]
  | again known _ ih =>
    rw [Sources.readAll]
    simp only [Sources.isSome_get?_iff, known, if_true]
    exact ih
  | fail new fails =>
    rw [Sources.readAll]
    simp only [Sources.isSome_get?_iff, new, if_false, fails]
  | next new succeeds _ ih =>
    rw [Sources.readAll]
    simp only [Sources.isSome_get?_iff, new, if_false, succeeds]
    exact ih

/-! ## Termination -/

/-- How many of the paths that can be read were not read. -/
def unread (tree : FileTree) (entry : String) (read : Sources) : Nat :=
  Marks.remaining (entry :: tree.filePaths) read.paths

/-- Reading a module that can be read leaves less to be read. -/
theorem unread_lt {entry path : String} {read : Sources} (source : Source)
    (listed : path ∈ entry :: tree.filePaths) (new : path ∉ read.paths) :
    unread tree entry (read ++ [(path, source)]) < unread tree entry read := by
  refine Marks.remaining_lt listed new fun other mem => ?_
  rw [Sources.paths, List.map_append, List.mem_append]
  exact (List.mem_cons.mp mem).symm.imp id fun same => List.mem_singleton.mpr same

/-- **Reading ends**, when only the entry and files of the tree are pending. The bound is the number
of files not yet read, which goes down with each file; a path that is read already only shortens the
list. -/
theorem exists_reads {entry : String} (bound : Nat) (pending : List String) (read : Sources)
    (listed : ∀ path ∈ pending, path ∈ entry :: tree.filePaths)
    (near : unread tree entry read < bound) : ∃ result, Reads tree pending read result := by
  induction bound generalizing pending read with
  | zero => exact absurd near (Nat.not_lt_zero _)
  | succ bound ihBound =>
    -- a path that was read before shortens the list only
    induction pending with
    | nil => exact ⟨_, .done⟩
    | cons path rest ih =>
      have restListed := fun other mem => listed other (List.mem_cons_of_mem path mem)
      by_cases known : path ∈ read.paths
      · obtain ⟨result, reads⟩ := ih restListed
        exact ⟨result, .again known reads⟩
      cases reading : readSource tree path with
      | error fault => exact ⟨_, .fail known reading⟩
      | ok source =>
        have nearer := Nat.lt_of_lt_of_le
          (unread_lt source (listed path List.mem_cons_self) known) (Nat.le_of_lt_succ near)
        have moreListed : ∀ other ∈ source.targets.reverse ++ rest,
            other ∈ entry :: tree.filePaths := by
          intro other mem
          rcases List.mem_append.mp mem with mem | mem
          · exact List.mem_cons_of_mem _
              (mem_filePaths_of_mem_targets reading (List.mem_reverse.mp mem))
          · exact restListed other mem
        obtain ⟨result, reads⟩ := ihBound _ _ moreListed nearer
        exact ⟨result, .next known reading reads⟩

/-- From an entry the loop ends, with the result of `Sources.readAll`. -/
theorem reads_readAll (tree : FileTree) (entry : String) :
    Reads tree [entry] [] (Sources.readAll tree [entry] []) := by
  obtain ⟨result, reads⟩ := @exists_reads tree entry _ [entry] []
    (fun path mem => List.mem_cons.mpr (.inl (List.mem_singleton.mp mem))) (Nat.lt_succ_self _)
  exact reads.readAll_eq ▸ reads

/-! ## What is read -/

/-- What was read stays in front. -/
theorem Reads.prefix_of {pending : List String} {read sources : Sources}
    (reads : Reads tree pending read (.ok sources)) : read <+: sources := by
  generalize succeeds : Except.ok sources = result at reads
  induction reads with
  | done => cases succeeds; exact List.prefix_refl _
  | again _ _ ih => exact ih succeeds
  | fail _ _ => cases succeeds
  | next _ _ _ ih => exact (List.prefix_append _ _).trans (ih succeeds)

/-- What is pending is read, and with a module that is read the modules that it links to. By the
rules of reading: every new module puts its links on the list, and the list is empty in the end. -/
theorem Reads.closed {pending : List String} {read sources : Sources}
    (reads : Reads tree pending read (.ok sources)) :
    (∀ path ∈ pending, path ∈ sources.paths) ∧
      ∀ entry ∈ sources, entry ∈ read ∨ ∀ target ∈ entry.2.targets, target ∈ sources.paths := by
  generalize succeeds : Except.ok sources = result at reads
  induction reads with
  | done =>
    cases succeeds
    exact ⟨fun _ mem => absurd mem List.not_mem_nil, fun _ mem => .inl mem⟩
  | again known reads ih =>
    subst succeeds
    obtain ⟨pendingRead, linked⟩ := ih rfl
    refine ⟨fun path mem => ?_, linked⟩
    rcases List.mem_cons.mp mem with rfl | mem
    · exact (reads.prefix_of.map Prod.fst).subset known
    · exact pendingRead path mem
  | fail _ _ => cases succeeds
  | next new _ reads ih =>
    subst succeeds
    obtain ⟨pendingRead, linked⟩ := ih rfl
    have here := reads.prefix_of.subset (List.mem_append_right _ List.mem_cons_self)
    refine ⟨fun path mem => ?_, fun entry mem => ?_⟩
    · rcases List.mem_cons.mp mem with rfl | mem
      · exact Sources.mem_paths_of_mem here
      · exact pendingRead path (List.mem_append_right _ mem)
    · rcases linked entry mem with before | targets
      · rcases List.mem_append.mp before with before | same
        · exact .inl before
        · rw [List.mem_singleton.mp same]
          exact .inr fun target listed =>
            pendingRead target (List.mem_append_left _ (List.mem_reverse.mpr listed))
      · exact .inr targets

/-- A chain of links leads from the entry to a module. -/
inductive Linked (sources : Sources) (entry : String) : String → Prop
  | entry : Linked sources entry entry
  | step {path target : String} {source : Source} (linked : Linked sources entry path)
      (found : sources.get? path = some source) (mem : target ∈ source.targets) :
      Linked sources entry target

/-- Nothing is read that no chain of links leads to. The other direction of being closed: what was
put on the list came from a module that was read. -/
theorem Reads.linked {entry : String} {pending : List String} {read sources : Sources}
    (reads : Reads tree pending read (.ok sources))
    (begun : ∀ path ∈ pending, Linked sources entry path) :
    ∀ path ∈ sources.paths, path ∈ read.paths ∨ Linked sources entry path := by
  generalize succeeds : Except.ok sources = result at reads
  induction reads with
  | done => cases succeeds; exact fun _ mem => .inl mem
  | again _ _ ih => exact ih (fun other mem => begun other (List.mem_cons_of_mem _ mem)) succeeds
  | fail _ _ => cases succeeds
  | @next path rest read source _ new _ reads ih =>
    subst succeeds
    have own := begun path List.mem_cons_self
    obtain ⟨more, rfl⟩ := reads.prefix_of
    have found : Sources.get? (read ++ [(path, source)] ++ more) path = some source := by
      rw [List.append_assoc]
      exact Sources.get?_append_cons new
    have pendingLinked : ∀ other ∈ source.targets.reverse ++ rest,
        Linked (read ++ [(path, source)] ++ more) entry other := by
      intro other mem
      rcases List.mem_append.mp mem with mem | mem
      · exact own.step found (List.mem_reverse.mp mem)
      · exact begun other (List.mem_cons_of_mem _ mem)
    intro other mem
    rcases ih pendingLinked rfl other mem with before | linked
    · rw [Sources.paths, List.map_append, List.mem_append] at before
      rcases before with before | same
      · exact .inl before
      · exact .inr (List.mem_singleton.mp same ▸ own)
    · exact .inr linked

/-- A module is read once. -/
theorem Reads.nodup {pending : List String} {read sources : Sources}
    (reads : Reads tree pending read (.ok sources)) (nodup : read.paths.Nodup) :
    sources.paths.Nodup := by
  generalize succeeds : Except.ok sources = result at reads
  induction reads with
  | done => cases succeeds; exact nodup
  | again _ _ ih => exact ih nodup succeeds
  | fail _ _ => cases succeeds
  | next new _ _ ih =>
    refine ih ?_ succeeds
    rw [Sources.paths, List.map_append]
    exact nodup.append (List.nodup_singleton _) (List.disjoint_singleton.mpr new)

/-- What was read is what the tree holds. So later steps can be stated about the tree instead of the
list. -/
theorem Reads.readSource_eq {pending : List String} {read sources : Sources}
    (reads : Reads tree pending read (.ok sources)) :
    ∀ entry ∈ sources, entry ∈ read ∨ readSource tree entry.1 = .ok entry.2 := by
  generalize succeeds : Except.ok sources = result at reads
  induction reads with
  | done => cases succeeds; exact fun _ mem => .inl mem
  | again _ _ ih => exact ih succeeds
  | fail _ _ => cases succeeds
  | next _ here _ ih =>
    intro entry mem
    rcases ih succeeds entry mem with mem | read
    · refine (List.mem_append.mp mem).imp id fun same => ?_
      rw [List.mem_singleton.mp same]
      exact here
    · exact .inr read

/-- When reading fails, it fails at a module that is pending or that one of these leads to. So a
fault is never one of a module that nothing refers to. -/
theorem Reads.exists_fault {entry : String} {pending : List String} {read : Sources}
    {fault : ProjectFault} (reads : Reads tree pending read (.error fault))
    (begun : ∀ path ∈ pending, ReflTransGen (Imports tree) entry path) :
    ∃ path, ReflTransGen (Imports tree) entry path ∧ readSource tree path = .error fault := by
  generalize fails : Except.error fault = result at reads
  induction reads with
  | done => cases fails
  | again _ _ ih => exact ih (fun other mem => begun other (List.mem_cons_of_mem _ mem)) fails
  | fail _ here => cases fails; exact ⟨_, begun _ List.mem_cons_self, here⟩
  | next _ here _ ih =>
    refine ih (fun other mem => ?_) fails
    rcases List.mem_append.mp mem with mem | mem
    · exact (begun _ List.mem_cons_self).tail ⟨_, here, List.mem_reverse.mp mem⟩
    · exact begun other (List.mem_cons_of_mem _ mem)

/-- From an entry a module was read as what the tree holds. -/
theorem Reads.readSource_of_get? {entry path : String} {sources : Sources} {source : Source}
    (reads : Reads tree [entry] [] (.ok sources)) (found : sources.get? path = some source) :
    readSource tree path = .ok source :=
  (reads.readSource_eq _ (Sources.mem_of_get? found)).resolve_left List.not_mem_nil

/-- Links that were read are imports. -/
theorem Reads.reflTransGen_of_linked {entry start path : String} {sources : Sources}
    (reads : Reads tree [entry] [] (.ok sources)) (linked : Linked sources start path) :
    ReflTransGen (Imports tree) start path := by
  induction linked with
  | entry => exact .refl
  | step _ found mem ih => exact ih.tail ⟨_, reads.readSource_of_get? found, mem⟩

/-- **What is read from an entry are the modules that imports lead to.** What is read is closed
under links, so a chain of imports never leaves it. -/
theorem Reads.linked_iff {entry : String} {sources : Sources}
    (reads : Reads tree [entry] [] (.ok sources)) (path : String) :
    Linked sources entry path ↔ ReflTransGen (Imports tree) entry path := by
  refine ⟨reads.reflTransGen_of_linked, fun reached => ?_⟩
  have listed : ∀ other, Linked sources entry other → other ∈ sources.paths := by
    intro other linked
    induction linked with
    | entry => exact reads.closed.1 entry List.mem_cons_self
    | step _ found mem _ =>
      exact (reads.closed.2 _ (Sources.mem_of_get? found)).resolve_left List.not_mem_nil _ mem
  induction reached with
  | refl => exact .entry
  | tail _ imports ih =>
    obtain ⟨source, read, mem⟩ := imports
    obtain ⟨stored, found⟩ :=
      Option.isSome_iff_exists.mp (Sources.isSome_get?_iff.mpr (listed _ ih))
    rw [reads.readSource_of_get? found] at read
    cases read
    exact ih.step found mem

/-- **What is read depends on the shape of the tree and on what was read.** Links depend on which
files there are, and texts only on the files that are read. -/
theorem Reads.of_agree (same : tree.SameShape other) {pending : List String}
    {read sources : Sources} (reads : Reads tree pending read (.ok sources))
    (agree : tree.AgreeOn other sources.paths) :
    Reads other pending read (.ok sources) := by
  generalize succeeds : Except.ok sources = result at reads
  induction reads with
  | done => exact .done
  | again known _ ih => exact .again known (ih succeeds)
  | fail _ _ => cases succeeds
  | next new read reads ih =>
    subst succeeds
    have here := reads.prefix_of.subset (List.mem_append_right _ List.mem_cons_self)
    have again := readSource_congr same (agree _ (Sources.mem_paths_of_mem here))
    exact .next new (again ▸ read) (ih rfl)

end StyleGraph.Static
