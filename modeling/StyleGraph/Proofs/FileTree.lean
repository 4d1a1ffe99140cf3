import Mathlib.Data.List.Infix
import StyleGraph.FileTree
import StyleGraph.Proofs.Path.Below

/-!
# Looking files up

A path that leads somewhere leads to the place that its names stand for, and every place above that
one is a directory (`Open`). So cleaning a path that leads somewhere changes nothing that is found
there (`lookup_clean`), and a clean path to a file is one of the paths of the tree's own files
(`mem_filePaths_of_isFile_clean`).

Two trees have the same shape (`SameShape`) when the same places hold files and the same places hold
directories. Of two such trees a path leads somewhere in both, or fails alike in both.

A directory of a tree holds another tree if everything has its place there (`Holds`). Then a path
below the directory leads to what the same names lead to in the other tree (`Holds.lookup`). A
directory holds what its files and directories are (`holds_of_below`).
-/

set_option autoImplicit false

namespace StyleGraph.FileTree

open StyleGraph.Path (IsName rooted relativeOf staysBelow)

variable {tree : FileTree}

/-! ## Following names -/

/-- All places above the one that names stand for are directories. -/
def Open (tree : FileTree) (names : List String) : Prop :=
  ∀ lead, lead <+: names → lead ≠ names → tree.place? lead = some .directory

/-- The root is open whatever the tree holds, as nothing stands above it. -/
theorem open_nil : tree.Open [] := fun _ above differs =>
  absurd (List.prefix_nil.mp above) differs

/-- Below a directory that can be reached. -/
theorem Open.enter {names : List String} (opened : tree.Open names)
    (directory : tree.place? names = some .directory) (text : String) :
    tree.Open (names ++ [text]) := by
  intro lead above differs
  rcases List.prefix_concat_iff.mp above with same | above
  · exact absurd same differs
  · by_cases same : lead = names
    · rw [same]
      exact directory
    · exact opened lead above same

/-- Above a place that can be reached. -/
theorem Open.leave {names : List String} (opened : tree.Open names) :
    tree.Open names.dropLast := by
  intro lead above differs
  refine opened lead (above.trans (List.dropLast_prefix names)) ?_
  rintro rfl
  exact differs (above.eq_of_length_le (List.dropLast_prefix lead).length_le)

/-- A piece leads from an open directory to an open place. -/
theorem Open.step {names : List String} (opened : tree.Open names)
    (directory : tree.place? names = some .directory) (piece : List Char) :
    tree.Open (Path.step names piece) := by
  rcases Path.partOf?_cases piece with part | part | ⟨text, part⟩
  · rw [Path.step_of_none part]
    exact opened
  · rw [Path.step_of_some part]
    exact opened.leave
  · rw [Path.step_of_some part]
    exact opened.enter directory text

/-- Following one piece more, from a directory. -/
theorem follow_cons_of_directory {names : List String}
    (directory : tree.place? names = some .directory) (piece : List Char)
    (pieces : List (List Char)) :
    tree.follow names (piece :: pieces) = tree.follow (Path.step names piece) pieces := by
  rw [FileTree.follow, directory]
  rcases Path.partOf?_cases piece with part | part | ⟨text, part⟩ <;>
    simp only [part, Path.step, Option.elim_none, Option.elim_some, Path.advance]

/-- Pieces are followed from a directory only. -/
theorem directory_of_follow_cons {names : List String} {piece : List Char}
    {pieces : List (List Char)} {place : Place}
    (found : tree.follow names (piece :: pieces) = .ok place) :
    tree.place? names = some .directory := by
  rw [FileTree.follow] at found
  split at found
  next directory => exact directory
  next => cases found
  next => cases found

/-- **Pieces that lead somewhere lead to the place of their names**, by directories only. -/
theorem open_follow {names : List String} {pieces : List (List Char)} {place : Place}
    (opened : tree.Open names) (found : tree.follow names pieces = .ok place) :
    tree.Open (Path.follow names pieces) ∧
      tree.place? (Path.follow names pieces) = some place := by
  induction pieces generalizing names with
  | nil =>
    rw [FileTree.follow] at found
    split at found
    next there => cases found; exact ⟨opened, there⟩
    next => cases found
  | cons piece pieces ih =>
    have directory := directory_of_follow_cons found
    rw [follow_cons_of_directory directory] at found
    rw [Path.follow_cons]
    exact ih (opened.step directory piece) found

/-- Names lead to their place, when the way there is open. Each name is one step down, so a way of
names never leaves the directories that lie on it. -/
theorem follow_names {base texts : List String} {place : Place}
    (named : ∀ text ∈ texts, IsName text) (opened : tree.Open (base ++ texts))
    (there : tree.place? (base ++ texts) = some place) :
    tree.follow base (texts.map String.toList) = .ok place := by
  induction texts generalizing base with
  | nil =>
    rw [List.append_nil] at there
    simp only [List.map_nil, FileTree.follow, there]
  | cons text texts ih =>
    have directory : tree.place? base = some .directory :=
      opened base (List.prefix_append _ _) (by simp)
    have part := (named text List.mem_cons_self).2
    have shifted : base ++ text :: texts = (base ++ [text]) ++ texts := by simp
    rw [shifted] at opened there
    rw [List.map_cons, follow_cons_of_directory directory, Path.step_of_some part]
    exact ih (fun other mem => named other (List.mem_cons_of_mem _ mem)) opened there

/-! ## Looking up -/

/-- Only absolute paths lead anywhere. -/
theorem isAbsolute_of_lookup {path : String} {place : Place}
    (found : tree.lookup path = .ok place) : Path.isAbsolute path = true := by
  unfold lookup at found
  split at found
  next rest chars => simp only [Path.isAbsolute, chars, List.head?_cons, beq_self_eq_true]
  next => cases found

/-- What leads somewhere leads to the place of its names. The pieces of a path that lead somewhere
are cleaned like its names, step for step. -/
theorem open_names {path : String} {place : Place} (found : tree.lookup path = .ok place) :
    tree.place? [] = some .directory ∧ tree.Open (Path.names path) ∧
      tree.place? (Path.names path) = some place := by
  unfold lookup at found
  split at found
  next rest chars =>
    have names : Path.names path = Path.follow [] (Text.cutAll '/' rest) := by
      rw [Path.names, chars]
      simp only [Text.cutAll, if_true]
      rw [Path.follow_cons, Path.step_of_none rfl]
    rw [names]
    refine ⟨?_, open_follow open_nil found⟩
    obtain ⟨piece, pieces, cut⟩ := List.exists_cons_of_ne_nil (@Text.cutAll_ne_nil '/' rest)
    rw [cut] at found
    exact directory_of_follow_cons found
  next => cases found

/-- A list of names that is written down leads to its place, when the way there is open. With
`open_names` this says that what is found depends on the names of a path only. -/
theorem lookup_rooted {texts : List String} {place : Place}
    (named : ∀ text ∈ texts, IsName text) (root : tree.place? [] = some .directory)
    (opened : tree.Open texts) (there : tree.place? texts = some place) :
    tree.lookup (rooted texts) = .ok place := by
  unfold lookup
  rw [Path.toList_rooted]
  simp only
  cases texts with
  | nil =>
    simp only [List.map_nil, Text.joinWith, Text.cutAll]
    rw [follow_cons_of_directory root, Path.step_of_none rfl, FileTree.follow, there]
  | cons text texts =>
    rw [Path.cutAll_rooted named (by simp)]
    exact follow_names named opened there

/-- **Cleaning a path that leads somewhere changes nothing that is found.** -/
theorem lookup_clean {path : String} {place : Place} (found : tree.lookup path = .ok place) :
    tree.lookup (Path.clean path) = .ok place := by
  obtain ⟨root, opened, there⟩ := open_names found
  rw [Path.clean_of_isAbsolute (isAbsolute_of_lookup found)]
  exact lookup_rooted (fun _ mem => Path.isName_of_mem_names mem) root opened there

/-- What can be read is a file. -/
theorem isFile_of_readText {path text : String} (read : tree.readText path = .ok text) :
    tree.isFile path = true := by
  unfold readText at read
  unfold isFile
  split at read <;> simp_all

/-- A path that is a file leads to its content. -/
theorem exists_lookup_of_isFile {path : String} (file : tree.isFile path = true) :
    ∃ content, tree.lookup path = .ok (.file content) := by
  unfold isFile at file
  split at file
  next content found => exact ⟨content, found⟩
  next => cases file

/-- The path of a file is written as the list of its names. The two are spelled by different
recursions, so they are compared character by character. -/
private theorem pathOf_eq_rooted {texts : List String} (nonempty : texts ≠ []) :
    pathOf texts = rooted texts := by
  have chars : ∀ (texts : List String) (lead : String),
      ((texts.map ("/" ++ ·)).foldl (· ++ ·) lead).toList =
        lead.toList ++ texts.flatMap fun text => '/' :: text.toList := by
    intro texts
    induction texts with
    | nil => intro lead; simp
    | cons text texts ih =>
      intro lead
      have slash : "/".toList = ['/'] := rfl
      simp only [List.map_cons, List.foldl_cons, ih, String.toList_append, slash,
        List.flatMap_cons, List.append_assoc, List.cons_append, List.nil_append]
  have joined : ∀ texts : List String, texts ≠ [] →
      (texts.flatMap fun text => '/' :: text.toList) =
        '/' :: Text.joinWith ['/'] (texts.map String.toList) := by
    intro texts
    induction texts with
    | nil => intro empty; exact absurd rfl empty
    | cons text texts ih =>
      intro _
      cases texts with
      | nil => simp [Text.joinWith]
      | cons next texts =>
        rw [List.flatMap_cons, ih (by simp)]
        simp [Text.joinWith]
  apply String.toList_inj.mp
  rw [Path.toList_rooted, pathOf, String.join, chars, joined texts nonempty]
  rfl

/-- A clean path to a file is written from names, and there is at least one: the root is no file. -/
theorem exists_rooted_of_isFile_clean {path : String}
    (file : tree.isFile (Path.clean path) = true) :
    ∃ texts, texts ≠ [] ∧ (∀ text ∈ texts, IsName text) ∧ Path.clean path = rooted texts := by
  obtain ⟨content, found⟩ := exists_lookup_of_isFile file
  obtain ⟨texts, named, written⟩ :=
    Path.exists_rooted_of_isAbsolute_clean (isAbsolute_of_lookup found)
  obtain ⟨root, _, there⟩ := open_names found
  refine ⟨texts, ?_, named, written⟩
  rintro rfl
  rw [written, Path.names_rooted named, root] at there
  cases there

/-- **A clean path to a file is the path of one of the tree's files.** So a walk that visits clean
paths has finitely many files to go to. -/
theorem mem_filePaths_of_isFile_clean {path : String}
    (file : tree.isFile (Path.clean path) = true) : Path.clean path ∈ tree.filePaths := by
  obtain ⟨content, found⟩ := exists_lookup_of_isFile file
  obtain ⟨texts, nonempty, named, written⟩ := exists_rooted_of_isFile_clean file
  obtain ⟨_, _, there⟩ := open_names found
  rw [written, Path.names_rooted named] at there
  have listed : ∃ file ∈ tree.files, file.1 = texts := by
    unfold place? at there
    split at there
    next entry _ search =>
      refine ⟨_, List.mem_of_find?_eq_some search, ?_⟩
      simpa using List.find?_some search
    next => split at there <;> cases there
  obtain ⟨entry, mem, names⟩ := listed
  refine List.mem_map.mpr ⟨entry, mem, ?_⟩
  rw [names, written, pathOf_eq_rooted nonempty]

/-! ## Trees of the same shape -/

/-- Whether a place holds a file. -/
def Place.isFile : Place → Bool
  | .file _ => true
  | .directory => false

/-- The same places hold files, and the same places hold directories. -/
def SameShape (tree other : FileTree) : Prop :=
  ∀ names, (tree.place? names).map Place.isFile = (other.place? names).map Place.isFile

variable {other : FileTree}

/-- Having the same shape says nothing about which tree came first. -/
theorem SameShape.symm (same : tree.SameShape other) : other.SameShape tree :=
  fun names => (same names).symm

/-- Trees have the same shape if they differ in what their files hold only. What stands at a place
is found by the names, and contents are looked at last. -/
theorem sameShape_of_names_eq (files : tree.files.map Prod.fst = other.files.map Prod.fst)
    (directories : tree.directories = other.directories) : tree.SameShape other := by
  intro names
  have found : ∀ tree : FileTree,
      (tree.files.find? fun file => file.1 = names).map Prod.fst =
        (tree.files.map Prod.fst).find? fun leading => leading = names := by
    intro tree
    rw [List.find?_map]
    rfl
  have below : ∀ tree : FileTree, (tree.files.any fun file => names.isPrefixOf file.1) =
      (tree.files.map Prod.fst).any (names.isPrefixOf ·) := by
    intro tree
    rw [List.any_map]
    rfl
  have same := (found tree).trans ((files ▸ rfl : _ = _).trans (found other).symm)
  unfold place?
  rw [below tree, below other, files, directories]
  cases search : tree.files.find? fun file => file.1 = names <;>
    cases searchOther : other.files.find? fun file => file.1 = names <;>
    simp_all [Place.isFile]

/-- What trees of the same shape hold at a place. -/
theorem SameShape.place?_cases (same : tree.SameShape other) (names : List String) :
    tree.place? names = none ∧ other.place? names = none ∨
      tree.place? names = some .directory ∧ other.place? names = some .directory ∨
      ∃ content contentOther, tree.place? names = some (.file content) ∧
        other.place? names = some (.file contentOther) := by
  have here := same names
  rcases there : tree.place? names with _ | ⟨content | _⟩ <;>
    rcases thereOther : other.place? names with _ | ⟨contentOther | _⟩ <;>
    simp_all [Place.isFile]

/-- Pieces lead to the same kind of place in both trees, or fail alike. The step at each piece is
the same, as it asks only what kind of place is there. -/
theorem SameShape.follow (same : tree.SameShape other) (names : List String)
    (pieces : List (List Char)) :
    (tree.follow names pieces).map Place.isFile =
      (other.follow names pieces).map Place.isFile := by
  induction pieces generalizing names with
  | nil =>
    rcases same.place?_cases names with ⟨here, there⟩ | ⟨here, there⟩ | ⟨_, _, here, there⟩
    · simp only [FileTree.follow, here, there]
    · simp only [FileTree.follow, here, there]
    · simp only [FileTree.follow, here, there]
      rfl
  | cons piece pieces ih =>
    rcases same.place?_cases names with ⟨here, there⟩ | ⟨here, there⟩ | ⟨_, _, here, there⟩
    · simp only [FileTree.follow, here, there]
    · rw [follow_cons_of_directory here, follow_cons_of_directory there]
      exact ih _
    · simp only [FileTree.follow, here, there]

/-- A path leads to the same kind of place in both trees, or fails alike. -/
theorem SameShape.lookup (same : tree.SameShape other) (path : String) :
    (tree.lookup path).map Place.isFile = (other.lookup path).map Place.isFile := by
  unfold FileTree.lookup
  split
  · exact same.follow _ _
  · rfl

/-- Trees of one shape have the same files, whatever the files hold. -/
theorem SameShape.isFile (same : tree.SameShape other) (path : String) :
    tree.isFile path = other.isFile path := by
  have kinds : ∀ tree : FileTree, tree.isFile path =
      match (tree.lookup path).map Place.isFile with
      | .ok holds => holds
      | .error _ => false := by
    intro tree
    unfold FileTree.isFile
    rcases tree.lookup path with _ | ⟨_ | _⟩ <;> rfl
  rw [kinds tree, kinds other, same.lookup]

/-- **Two trees agree on a path if they agree on the path that cleaning makes of it.** Where the
path leads somewhere it leads to the same place clean, and elsewhere both trees fail alike. -/
theorem SameShape.readText_eq_of_clean (same : tree.SameShape other) {path : String}
    (agree : tree.readText (Path.clean path) = other.readText (Path.clean path)) :
    tree.readText path = other.readText path := by
  have kinds := same.lookup path
  cases found : tree.lookup path with
  | ok place =>
    obtain ⟨placeOther, foundOther⟩ : ∃ placeOther, other.lookup path = .ok placeOther := by
      cases there : other.lookup path with
      | ok placeOther => exact ⟨placeOther, rfl⟩
      | error fault => rw [found, there] at kinds; cases kinds
    unfold readText at agree ⊢
    rwa [found, foundOther, ← lookup_clean found, ← lookup_clean foundOther]
  | error fault =>
    have failsOther : other.lookup path = .error fault := by
      cases there : other.lookup path with
      | ok placeOther => rw [found, there] at kinds; cases kinds
      | error faultOther => rw [found, there] at kinds; cases kinds; rfl
    simp only [readText, found, failsOther]

/-- The trees hold the same at some paths. -/
def AgreeOn (tree other : FileTree) (paths : List String) : Prop :=
  ∀ path ∈ paths, tree.readText path = other.readText path

/-! ## Trees inside of trees -/

variable {whole : FileTree} {base texts : List String}

/-- **A directory holds a tree.** Directories lead to it, and below it everything has its place. -/
structure Holds (whole : FileTree) (base : List String) (tree : FileTree) : Prop where
  way : ∀ lead, lead <+: base → whole.place? lead = some .directory
  within : ∀ names, whole.place? (base ++ names) = tree.place? names

/-- Every tree is held at its root. -/
theorem holds_root (root : tree.place? [] = some .directory) : tree.Holds [] tree :=
  ⟨fun _ above => List.prefix_nil.mp above ▸ root, fun _ => rfl⟩

/-! ### Looking up in a directory -/

/-- By names of directories one arrives there. It goes by the recursion that follows the pieces, and
directories never stop it. -/
theorem follow_directories (start : List String) (named : ∀ text ∈ base, IsName text)
    (way : ∀ lead, lead <+: base → tree.place? (start ++ lead) = some .directory)
    (pieces : List (List Char)) :
    tree.follow start (base.map String.toList ++ pieces) = tree.follow (start ++ base) pieces := by
  induction base generalizing start with
  | nil => rw [List.map_nil, List.nil_append, List.append_nil]
  | cons text base ih =>
    have directory : tree.place? start = some .directory := by
      simpa using way [] List.nil_prefix
    have entered : Path.step start text.toList = start ++ [text] :=
      Path.step_of_some (named text List.mem_cons_self).2 start
    rw [List.map_cons, List.cons_append, follow_cons_of_directory directory, entered,
      ih (start ++ [text]) fun other mem => named other (List.mem_cons_of_mem _ mem)]
    · rw [List.append_assoc, List.singleton_append]
    · intro lead above
      rw [List.append_assoc, List.singleton_append]
      exact way (text :: lead) (List.cons_prefix_cons.mpr ⟨rfl, above⟩)

namespace Holds

/-- A tree that is held has a directory at its root. -/
theorem root (holds : whole.Holds base tree) : tree.place? [] = some .directory := by
  rw [← holds.within, List.append_nil]
  exact holds.way base List.prefix_rfl

/-- Behind the directory a relative path is followed from there. So the way to the directory can be
skipped once and for all. -/
theorem lookup_join (holds : whole.Holds base tree) (named : ∀ text ∈ base, IsName text)
    {path : String} (relative : Path.isAbsolute path = false) :
    whole.lookup (Path.join (rooted base) path) =
      whole.follow base (Text.cutAll '/' path.toList) := by
  unfold lookup
  rw [Path.toList_join_rooted named relative]
  simp only
  split
  next root => rw [root]
  next below =>
    rw [Text.cutAll_append_sep, Path.cutAll_rooted named below,
      follow_directories [] named fun lead above => holds.way lead above]
    rfl

/-- Pieces that stay below lead to the same. -/
theorem follow (holds : whole.Holds base tree) {names : List String} {pieces : List (List Char)}
    (stays : staysBelow names pieces = true) :
    whole.follow (base ++ names) pieces = tree.follow names pieces := by
  induction pieces generalizing names with
  | nil => rw [FileTree.follow, FileTree.follow, holds.within]
  | cons piece pieces ih =>
    obtain ⟨here, later⟩ := Path.staysBelow_cons.mp stays
    cases there : tree.place? names with
    | none => simp only [FileTree.follow, holds.within, there]
    | some place =>
      cases place with
      | file content => simp only [FileTree.follow, holds.within, there]
      | directory =>
        rw [follow_cons_of_directory there,
          follow_cons_of_directory ((holds.within names).trans there), Path.step_append base here,
          ih later]

/-- **Names lead to the same**, below the directory and from the root of what it holds. Both are
brought to a relative path first, which is followed from either place alike. -/
theorem lookup (holds : whole.Holds base tree) (baseNamed : ∀ text ∈ base, IsName text)
    (named : ∀ text ∈ texts, IsName text) (nonempty : texts ≠ []) :
    whole.lookup (rooted (base ++ texts)) = tree.lookup (rooted texts) := by
  have relative := Path.isAbsolute_relativeOf named
  have cut : Text.cutAll '/' (relativeOf texts).toList = texts.map String.toList := by
    rw [Path.toList_relativeOf, Path.cutAll_rooted named nonempty]
  have noNames : ∀ text ∈ ([] : List String), IsName text := fun _ mem => nomatch mem
  have here := (holds_root holds.root).lookup_join noNames relative
  rw [Path.join_relativeOf noNames named nonempty, List.nil_append] at here
  rw [← Path.join_relativeOf baseNamed named nonempty, holds.lookup_join baseNamed relative, here,
    cut]
  have same := holds.follow (Path.staysBelow_names named [])
  rwa [List.append_nil] at same

/-- Below the base, the whole tree has the files of the part. -/
theorem isFile (holds : whole.Holds base tree) (baseNamed : ∀ text ∈ base, IsName text)
    (named : ∀ text ∈ texts, IsName text) (nonempty : texts ≠ []) :
    whole.isFile (rooted (base ++ texts)) = tree.isFile (rooted texts) := by
  rw [FileTree.isFile, FileTree.isFile, holds.lookup baseNamed named nonempty]

/-- Below the base, the whole tree has the texts of the part. -/
theorem readText (holds : whole.Holds base tree) (baseNamed : ∀ text ∈ base, IsName text)
    (named : ∀ text ∈ texts, IsName text) (nonempty : texts ≠ []) :
    whole.readText (rooted (base ++ texts)) = tree.readText (rooted texts) := by
  rw [FileTree.readText, FileTree.readText, holds.lookup baseNamed named nonempty]

/-- The directory itself cannot be read. -/
theorem readText_self (holds : whole.Holds base tree) (named : ∀ text ∈ base, IsName text) :
    whole.readText (Path.join (rooted base) ".") = .error .isDirectory := by
  have directory := holds.way base List.prefix_rfl
  have there : whole.lookup (Path.join (rooted base) ".") = .ok .directory := by
    rw [holds.lookup_join named rfl]
    have cut : Text.cutAll '/' ".".toList = [['.']] := by decide
    rw [cut, follow_cons_of_directory directory, Path.step_of_none rfl, FileTree.follow, directory]
  rw [FileTree.readText, there]

end Holds

/-! ### What a directory holds -/

/-- What stands at a place: a file with its names, else a directory if it is the root, given, or
above something. -/
theorem place?_eq (tree : FileTree) (names : List String) :
    tree.place? names =
      match (tree.files.find? fun file => file.1 = names).map Prod.snd with
      | some content => some (.file content)
      | none =>
        if names.isEmpty || tree.directories.any (names.isPrefixOf ·) ||
            tree.files.any (fun file => names.isPrefixOf file.1) then some .directory
        else none := by
  unfold place?
  cases tree.files.find? fun file => file.1 = names <;> rfl

/-- Places above some that are below a directory, seen from there. Places that are not below the
directory cannot be above what is. -/
theorem any_isPrefixOf_append {places kept : List (List String)}
    (same : places.filter (base.isPrefixOf ·) = kept.map (base ++ ·)) (names : List String) :
    places.any ((base ++ names).isPrefixOf ·) = kept.any (names.isPrefixOf ·) := by
  have below : ((base ++ names).isPrefixOf · : List String → Bool) = fun place =>
      base.isPrefixOf place && (base ++ names).isPrefixOf place := by
    funext place
    rw [Bool.eq_iff_iff, Bool.and_eq_true, iff_and_self, List.isPrefixOf_iff_prefix,
      List.isPrefixOf_iff_prefix]
    exact (List.prefix_append base names).trans
  have inside : ((base ++ names).isPrefixOf <| base ++ · : List String → Bool) =
      (names.isPrefixOf ·) := by
    funext place
    rw [Bool.eq_iff_iff, List.isPrefixOf_iff_prefix, List.isPrefixOf_iff_prefix,
      List.prefix_append_right_inj]
  rw [below, ← List.any_filter, same, List.any_map]
  exact congrArg (kept.any ·) inside

/-- **A directory holds what is below it.** The way down has to be one of directories, since a path
is not followed through a file; what is beside the directory is not asked about. -/
theorem holds_of_below (way : ∀ lead ∈ base.inits, whole.place? lead = some .directory)
    (files : (whole.files.filter fun file => base.isPrefixOf file.1) =
      tree.files.map fun file => (base ++ file.1, file.2))
    (directories : whole.directories.filter (base.isPrefixOf ·) =
      tree.directories.map (base ++ ·)) : whole.Holds base tree := by
  refine ⟨fun lead above => way lead ((List.mem_inits _ _).mpr above), fun names => ?_⟩
  have found : (whole.files.find? fun file => file.1 = base ++ names).map Prod.snd =
      (tree.files.find? fun file => file.1 = names).map Prod.snd := by
    have passed : (fun file : List String × Content => decide (file.1 = base ++ names)) =
        fun file => decide (base.isPrefixOf file.1 ∧ decide (file.1 = base ++ names) = true) := by
      funext file
      rw [decide_eq_decide, decide_eq_true_eq, iff_and_self]
      intro same
      rw [same, List.isPrefixOf_iff_prefix]
      exact List.prefix_append base names
    have shifted : (fun file : List String × Content => decide (base ++ file.1 = base ++ names)) =
        fun file => decide (file.1 = names) := by
      simp only [List.append_cancel_left_eq]
    rw [passed, ← List.find?_filter, files, List.find?_map, Option.map_map]
    simp only [Function.comp_def, shifted]
  have anyDirectory := any_isPrefixOf_append directories names
  have anyFile : (whole.files.any fun file => (base ++ names).isPrefixOf file.1) =
      tree.files.any fun file => names.isPrefixOf file.1 := by
    have places : (whole.files.map Prod.fst).filter (base.isPrefixOf ·) =
        (tree.files.map Prod.fst).map (base ++ ·) := by
      rw [List.filter_map, List.map_map]
      exact (congrArg (List.map Prod.fst) files).trans (by rw [List.map_map]; rfl)
    have same := any_isPrefixOf_append places names
    rwa [List.any_map, List.any_map] at same
  by_cases here : names = []
  · subst here
    have directory := way base ((List.mem_inits _ _).mpr List.prefix_rfl)
    rw [List.append_nil] at found ⊢
    rw [directory, place?_eq tree, ← found]
    rw [place?_eq] at directory
    split at directory
    next => cases directory
    next => rfl
  · have filled : names.isEmpty = false := by simpa using here
    have wholeFilled : (base ++ names).isEmpty = false := by simpa using fun _ => here
    rw [place?_eq, place?_eq, found, filled, wholeFilled, anyDirectory, anyFile]

end StyleGraph.FileTree
