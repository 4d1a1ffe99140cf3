import Mathlib.Data.List.DropRight
import StyleGraph.Proofs.Path.Extension

/-!
# Paths below a directory

What leads from a directory to a path below it is what the path has behind the parts of the
directory (`parts_of_stripBase?`), spelled as it is there and without anything idle at its end. So
the way and the directory have the parts of the path between them, and of two clean paths the ways
from one directory are different if the paths are (`eq_of_stripBase?`). A way that leads anywhere
ends in the file name of its path (`ends_of_stripBase?`), and so does a clean path itself.

What lies below a directory is named by the names that lead there (`relativeOf`): these are the
clean relative paths without `..` (`exists_relativeOf_of_clean`), and behind the directory they make
a clean absolute path (`join_relativeOf`), which has its parents and its ways as its names say
(`parent?_rooted`, `stripBase?_rooted`).

Pieces that do not lead above a place (`staysBelow`) lead from the same place below any directory to
the same place below it (`follow_append`).
-/

set_option autoImplicit false

namespace StyleGraph.Path

section Ways

variable {base path other : String} {inside name : String}

/-! ## Idle pieces -/

/-- A piece is idle if it is no part of a path. -/
theorem isIdle_iff {piece : List Char} : isIdle piece = true ↔ partOf? piece = none := by
  unfold isIdle partOf?
  split <;> simp_all

/-- Idle pieces have no parts. -/
theorem filterMap_eq_nil_of_isIdle {pieces : List (List Char)}
    (idle : ∀ piece ∈ pieces, isIdle piece = true) : pieces.filterMap partOf? = [] :=
  List.filterMap_eq_nil_iff.mpr fun piece mem => isIdle_iff.mp (idle piece mem)

/-- Idle pieces at the beginning are no parts. -/
theorem filterMap_dropWhile_isIdle (pieces : List (List Char)) :
    (pieces.dropWhile isIdle).filterMap partOf? = pieces.filterMap partOf? := by
  conv_rhs => rw [← List.takeWhile_append_dropWhile (p := isIdle) (l := pieces)]
  rw [List.filterMap_append, filterMap_eq_nil_of_isIdle fun _ mem => List.mem_takeWhile_imp mem,
    List.nil_append]

/-- Nor are those at the end. -/
theorem filterMap_dropIdle (pieces : List (List Char)) :
    (dropIdle pieces).filterMap partOf? = pieces.filterMap partOf? := by
  rw [dropIdle, List.filterMap_reverse, filterMap_dropWhile_isIdle, ← List.filterMap_reverse,
    List.reverse_reverse]

/-- Pieces are dropped until there are as many parts fewer. -/
theorem filterMap_dropPieces (count : Nat) (pieces : List (List Char)) :
    (dropPieces count pieces).filterMap partOf? = (pieces.filterMap partOf?).drop count := by
  fun_induction dropPieces count pieces with
  | case1 pieces => exact filterMap_dropWhile_isIdle pieces
  | case2 count positive => rw [List.filterMap_nil, List.drop_nil]
  | case3 count piece rest idle ih => rw [ih, List.filterMap_cons, isIdle_iff.mp idle]
  | case4 count piece rest busy ih =>
    obtain ⟨part, found⟩ := Option.ne_none_iff_exists'.mp (mt isIdle_iff.mpr busy)
    rw [ih, List.filterMap_cons, found, List.drop_succ_cons]

/-- What is kept are pieces that were there. -/
theorem subset_dropIdle_dropPieces (count : Nat) (pieces : List (List Char)) :
    dropIdle (dropPieces count pieces) ⊆ pieces := by
  have kept : dropPieces count pieces <:+ pieces := by
    fun_induction dropPieces count pieces with
    | case1 pieces => exact List.dropWhile_suffix _
    | case2 count => exact List.nil_suffix
    | case3 count piece rest idle ih => exact ih.trans (List.suffix_cons piece rest)
    | case4 count piece rest busy ih => exact ih.trans (List.suffix_cons piece rest)
  exact List.Subset.trans (List.rdropWhile_prefix isIdle _).subset kept.subset

/-! ## The parts of a path, by its beginning and its pieces -/

/-- The parts that a beginning stands for. -/
def leadParts : List Char → List Part
  | ['/'] => [.root]
  | ['.'] => [.current]
  | _ => []

/-- How a path is split. What it begins with is the root, a dot, or neither, and the pieces are what
is left. -/
theorem split_cases (path : String) :
    (∃ body, path.toList = '/' :: body ∧ split path = (['/'], Text.cutAll '/' body)) ∨
    (isAbsolute path = false ∧ ∃ pieces, Text.cutAll '/' path.toList = ['.'] :: pieces ∧
      split path = (['.'], pieces)) ∨
    isAbsolute path = false ∧ (Text.cutAll '/' path.toList).head? ≠ some ['.'] ∧
      split path = ([], Text.cutAll '/' path.toList) := by
  unfold split isAbsolute
  split
  next body chars => exact .inl ⟨body, chars, rfl⟩
  next relative =>
    have differs : (path.toList.head? == some '/') = false := by
      rw [beq_eq_false_iff_ne]
      intro leads
      obtain ⟨body, chars⟩ := List.head?_eq_some_iff.mp leads
      exact relative body chars
    split
    next pieces cut => exact .inr (.inl ⟨differs, pieces, cut, rfl⟩)
    next other =>
      refine .inr (.inr ⟨differs, fun leads => ?_, rfl⟩)
      obtain ⟨pieces, cut⟩ := List.head?_eq_some_iff.mp leads
      exact other pieces cut

/-- The parts of a path are those of its beginning and of its pieces. So two paths with the same
beginning can be compared piece by piece. -/
theorem parts_eq_of_split (path : String) :
    parts path = leadParts (split path).1 ++ (split path).2.filterMap partOf? := by
  rcases split_cases path with ⟨body, chars, split⟩ | ⟨relative, pieces, cut, split⟩ |
    ⟨relative, plain, split⟩
  · have cut : Text.cutAll '/' path.toList = [] :: Text.cutAll '/' body := by
      rw [chars]
      simp only [Text.cutAll, if_true]
    have absolute : isAbsolute path = true := by
      rw [isAbsolute, chars]
      rfl
    rw [parts_of_isAbsolute absolute, cut, split]
    rfl
  · simp only [parts, relative, cut, split]
    rfl
  · simp only [parts, relative, split, beq_eq_false_iff_ne.mpr plain]
    rfl

/-- The pieces of a path stand between its slashes. -/
theorem split_subset (path : String) : (split path).2 ⊆ Text.cutAll '/' path.toList := by
  rcases split_cases path with ⟨body, chars, split⟩ | ⟨-, pieces, cut, split⟩ | ⟨-, -, split⟩
  · rw [split, chars]
    simp only [Text.cutAll, if_true]
    exact List.subset_cons_self _ _
  · rw [split, cut]
    exact List.subset_cons_self _ _
  · rw [split]
    exact List.Subset.refl _

/-- A beginning is nothing or one part. -/
theorem length_leadParts (path : String) :
    (leadParts (split path).1).length = if (split path).1.isEmpty then 0 else 1 := by
  rcases split_cases path with ⟨_, _, split⟩ | ⟨_, _, _, split⟩ | ⟨_, _, split⟩ <;>
    · rw [split]
      rfl

/-! ## Ways -/

/-- A way is written with the last pieces of its path, and these have the parts that the directory
has not. -/
theorem exists_of_stripBase? (named : parts base ≠ [])
    (found : stripBase? base path = some inside) :
    ∃ pieces, inside = String.ofList (Text.joinWith ['/'] (dropIdle pieces)) ∧
      dropIdle pieces ⊆ Text.cutAll '/' path.toList ∧
      parts path = parts base ++ (dropIdle pieces).filterMap partOf? := by
  have partsPath := parts_eq_of_split path
  have begun := length_leadParts path
  unfold stripBase? at found
  simp only at found
  split at found
  next begins =>
    rw [if_neg (by simpa using named)] at found
    refine ⟨_, (Option.some.inj found).symm, ?_, ?_⟩
    · exact List.Subset.trans (subset_dropIdle_dropPieces _ _) (split_subset path)
    · obtain ⟨rest, whole⟩ := List.isPrefixOf_iff_prefix.mp begins
      have positive := List.length_pos_of_ne_nil named
      have covered : (leadParts (split path).1).drop (parts base).length = [] := by
        rw [List.drop_eq_nil_iff, begun]
        split <;> omega
      have left : rest = ((split path).2.filterMap partOf?).drop
          ((parts base).length - (leadParts (split path).1).length) := by
        have behind : (parts base ++ rest).drop (parts base).length = rest := List.drop_left
        rw [← behind, whole, partsPath, List.drop_append, covered, List.nil_append]
      have counts : (parts base).length - (leadParts (split path).1).length =
          if (split path).1.isEmpty = true then (parts base).length
          else (parts base).length - 1 := by
        rw [begun]
        split <;> rfl
      rw [filterMap_dropIdle, filterMap_dropPieces, ← whole, left, counts]
  next => cases found

/-- **The parts of a path** are those of a directory and those of the way from there. -/
theorem parts_of_stripBase? (named : parts base ≠ [])
    (found : stripBase? base path = some inside) :
    parts path = parts base ++ (Text.cutAll '/' inside.toList).filterMap partOf? := by
  obtain ⟨pieces, rfl, kept, same⟩ := exists_of_stripBase? named found
  rw [same, String.toList_ofList]
  by_cases empty : dropIdle pieces = []
  · rw [empty]
    rfl
  · rw [Text.cutAll_joinWith (fun piece mem => Text.not_mem_of_mem_cutAll (kept mem)) empty]

/-- A way has no characters that its path has not, but slashes. -/
theorem not_mem_of_stripBase? {c : Char} (differs : c ≠ '/') (absent : c ∉ path.toList)
    (named : parts base ≠ []) (found : stripBase? base path = some inside) :
    c ∉ inside.toList := by
  obtain ⟨pieces, rfl, kept, -⟩ := exists_of_stripBase? named found
  rw [String.toList_ofList]
  refine Text.not_mem_joinWith (by simpa using differs) fun piece mem within => ?_
  exact absent (Text.mem_of_mem_cutAll (kept mem) within)

/-! ## Clean paths -/

/-- A clean path has parts. -/
theorem parts_ne_nil_of_clean (cleaned : clean path = path) : parts path ≠ [] := by
  intro none
  have dot : path = "." := by rw [← cleaned, clean, none]; rfl
  rw [dot] at none
  cases none

/-- Two clean paths with the same parts are the same. -/
theorem eq_of_parts (cleaned : clean path = path) (otherCleaned : clean other = other)
    (same : parts path = parts other) : path = other := by
  rw [← cleaned, ← otherCleaned, clean, clean, same]

/-- **A way tells clean paths apart.** -/
theorem eq_of_stripBase? (baseCleaned : clean base = base) (cleaned : clean path = path)
    (otherCleaned : clean other = other) (found : stripBase? base path = some inside)
    (otherFound : stripBase? base other = some inside) : path = other := by
  have named := parts_ne_nil_of_clean baseCleaned
  exact eq_of_parts cleaned otherCleaned <|
    (parts_of_stripBase? named found).trans (parts_of_stripBase? named otherFound).symm

/-! ## File names -/

/-- The file name of a path is its last part. -/
theorem exists_getLast?_of_fileName? (found : fileName? path = some name) :
    (parts path).getLast? = some (.name name) := by
  unfold fileName? at found
  split at found
  next text last =>
    cases found
    exact last
  next => cases found

/-- A way that leads anywhere ends in the file name of its path. The way is a part of the path as it
was written, and only its beginning was cut off. -/
theorem ends_of_stripBase? (named : parts base ≠ []) (file : fileName? path = some name)
    (found : stripBase? base path = some inside) :
    inside = "" ∨ ∃ front, inside.toList = front ++ name.toList := by
  obtain ⟨pieces, rfl, -, same⟩ := exists_of_stripBase? named found
  have last := exists_getLast?_of_fileName? file
  cases kept : dropIdle pieces using List.reverseRecOn with
  | nil => exact .inl rfl
  | append_singleton before piece _ =>
    -- the last piece is not idle, so it is the last part of the path
    have busy : ¬ isIdle piece = true := by
      have shape : List.rdropWhile isIdle pieces = before ++ [piece] := kept
      have ends := List.rdropWhile_last_not isIdle pieces (by simp [shape])
      simpa only [shape, List.getLast_concat] using ends
    obtain ⟨part, stands⟩ := Option.ne_none_iff_exists'.mp (mt isIdle_iff.mpr busy)
    rw [same, kept, List.filterMap_append, List.filterMap_cons, stands, List.filterMap_nil,
      ← List.append_assoc, List.getLast?_concat] at last
    cases last
    refine .inr ?_
    rw [String.toList_ofList, eq_of_partOf?_eq_name stands, Text.joinWith_append_singleton]
    split
    · exact ⟨[], rfl⟩
    · exact ⟨_, rfl⟩

/-- A clean path ends in its file name. The name is the last part that cleaning keeps, and nothing
is joined behind it. -/
theorem exists_clean_eq_append (file : fileName? path = some name) :
    ∃ front, (clean path).toList = front ++ name.toList := by
  obtain ⟨before, whole⟩ := List.getLast?_eq_some_iff.mp (exists_getLast?_of_fileName? file)
  have pushed : cleanStep (before.foldl cleanStep []) (.name name) =
      .name name :: before.foldl cleanStep [] := by
    cases before.foldl cleanStep [] <;> rfl
  have ends : ∀ base : String, ∃ front, (join base name).toList = front ++ name.toList := by
    intro base
    unfold join
    split
    · exact ⟨[], rfl⟩
    · split
      · exact ⟨[], rfl⟩
      · split
        · exact ⟨_, String.toList_append⟩
        · exact ⟨_, String.toList_append⟩
  rw [clean, whole, List.foldl_append, List.foldl_cons, List.foldl_nil, pushed]
  simp only [List.reverse_cons, ofParts, List.foldl_append, List.foldl_cons, List.foldl_nil]
  exact ends _

end Ways

variable {base texts : List String}

/-! ## Staying below -/

/-- Whether pieces never lead above all the names that they begin with. -/
def staysBelow : List String → List (List Char) → Bool
  | _, [] => true
  | names, piece :: pieces =>
    !(names.isEmpty && partOf? piece == some .parent) && staysBelow (step names piece) pieces

/-- Pieces stay below a directory if none of them leads out of it, one after the other. -/
theorem staysBelow_cons {names : List String} {piece : List Char} {pieces : List (List Char)} :
    staysBelow names (piece :: pieces) = true ↔
      (names = [] → partOf? piece ≠ some .parent) ∧
        staysBelow (step names piece) pieces = true := by
  simp [staysBelow, imp_iff_not_or]

/-- Names stay below. -/
theorem staysBelow_names (named : ∀ text ∈ texts, IsName text) (names : List String) :
    staysBelow names (texts.map String.toList) = true := by
  induction texts generalizing names with
  | nil => rfl
  | cons text texts ih =>
    rw [List.map_cons, staysBelow_cons, (named text List.mem_cons_self).2]
    exact ⟨fun _ => by simp, ih (fun other mem => named other (List.mem_cons_of_mem _ mem)) _⟩

/-- A step that stays below a directory is the same step from the directory. -/
theorem step_append (base : List String) {names : List String} {piece : List Char}
    (stays : names = [] → partOf? piece ≠ some .parent) :
    step (base ++ names) piece = base ++ step names piece := by
  rcases partOf?_cases piece with found | found | ⟨text, found⟩
  · rw [step_of_none found, step_of_none found]
  · have nonempty : names ≠ [] := fun empty => stays empty found
    rw [step_of_some found, step_of_some found, advance, advance,
      List.dropLast_append_of_ne_nil nonempty]
  · rw [step_of_some found, step_of_some found, advance, advance, List.append_assoc]

/-- **Pieces that stay below lead to the same place below any directory.** -/
theorem follow_append (base : List String) {names : List String} {pieces : List (List Char)}
    (stays : staysBelow names pieces = true) :
    follow (base ++ names) pieces = base ++ follow names pieces := by
  induction pieces generalizing names with
  | nil => rfl
  | cons piece pieces ih =>
    obtain ⟨here, later⟩ := staysBelow_cons.mp stays
    rw [follow_cons, follow_cons, step_append base here, ih later]

/-! ## Names below a directory -/

/-- The path from a directory to what names lead to from there. -/
def relativeOf (texts : List String) : String :=
  String.ofList (Text.joinWith ['/'] (texts.map String.toList))

/-- The characters of a relative path: its names with slashes between them. -/
theorem toList_relativeOf (texts : List String) :
    (relativeOf texts).toList = Text.joinWith ['/'] (texts.map String.toList) :=
  String.toList_ofList

/-- Such a path is not absolute, since no name begins with a slash. -/
theorem isAbsolute_relativeOf (named : ∀ text ∈ texts, IsName text) :
    isAbsolute (relativeOf texts) = false := by
  rw [isAbsolute, toList_relativeOf]
  cases texts with
  | nil => rfl
  | cons text texts =>
    obtain ⟨c, rest, chars⟩ := List.exists_cons_of_ne_nil (named text List.mem_cons_self).ne_nil
    have differs : c ≠ '/' := by
      rintro rfl
      exact (named text List.mem_cons_self).1 (chars ▸ List.mem_cons_self)
    cases texts <;> simpa [Text.joinWith, chars] using differs

/-- **Behind a directory** names are entered. -/
theorem join_relativeOf (baseNamed : ∀ text ∈ base, IsName text)
    (named : ∀ text ∈ texts, IsName text) (nonempty : texts ≠ []) :
    join (rooted base) (relativeOf texts) = rooted (base ++ texts) := by
  apply String.toList_inj.mp
  rw [toList_join_rooted baseNamed (isAbsolute_relativeOf named), toList_relativeOf, toList_rooted,
    List.map_append]
  by_cases root : base = []
  · rw [if_pos root, root]
    rfl
  · rw [if_neg root, Text.joinWith_append _ (by simpa using root) (by simpa using nonempty)]
    simp

/-! ## Parents and ways -/

/-- A name is not idle. -/
theorem isIdle_toList {text : String} (named : IsName text) : isIdle text.toList = false := by
  rw [← Bool.not_eq_true, isIdle_iff, named.2]
  exact Option.some_ne_none _

/-- Names are not idle. -/
theorem dropIdle_names (named : ∀ text ∈ texts, IsName text) :
    dropIdle (texts.map String.toList) = texts.map String.toList := by
  cases texts using List.reverseRecOn with
  | nil => rfl
  | append_singleton texts text _ =>
    have busy := isIdle_toList (named text (by simp))
    rw [List.map_append, List.map_cons, List.map_nil]
    exact List.rdropWhile_concat_neg _ _ _ (by simp [busy])

/-- Dropping the pieces of a directory leaves the names below it. No name is an idle piece, so
exactly one piece is dropped for each name of the directory. -/
theorem dropPieces_names (baseNamed : ∀ text ∈ base, IsName text)
    (named : ∀ text ∈ texts, IsName text) :
    dropPieces base.length ((base ++ texts).map String.toList) = texts.map String.toList := by
  induction base with
  | nil =>
    cases texts with
    | nil => rfl
    | cons text texts =>
      have busy := isIdle_toList (named text List.mem_cons_self)
      exact List.dropWhile_cons_of_neg (by simp [busy])
  | cons text base ih =>
    have busy := isIdle_toList (baseNamed text List.mem_cons_self)
    rw [List.length_cons, List.cons_append, List.map_cons, dropPieces, busy,
      if_neg Bool.false_ne_true]
    exact ih fun other mem => baseNamed other (List.mem_cons_of_mem _ mem)

/-- The pieces of a clean absolute path behind its first slash. -/
theorem split_rooted (named : ∀ text ∈ texts, IsName text) (nonempty : texts ≠ []) :
    split (rooted texts) = (['/'], texts.map String.toList) := by
  simp only [split, toList_rooted, cutAll_rooted named nonempty]

/-- A relative path behind a place leads where its pieces lead from there. -/
theorem clean_join_rooted (named : ∀ text ∈ texts, IsName text) {path : String}
    (relative : isAbsolute path = false) :
    clean (join (rooted texts) path) = rooted (follow texts (Text.cutAll '/' path.toList)) := by
  have absolute := isAbsolute_rooted texts
  rw [clean_of_isAbsolute (isAbsolute_join_of_isAbsolute absolute path),
    names_join absolute relative, names_rooted named]

/-- **The parent of a path** has its names but the last. -/
theorem parent?_rooted {text : String} (named : ∀ text ∈ texts, IsName text)
    (last : IsName text) : parent? (rooted (texts ++ [text])) = some (rooted texts) := by
  have all : ∀ other ∈ texts ++ [text], IsName other := by
    simpa [or_imp, forall_and] using ⟨named, last⟩
  have turned : (dropIdle ((texts ++ [text]).map String.toList)).reverse =
      text.toList :: (texts.map String.toList).reverse := by
    rw [dropIdle_names all]
    simp
  simp only [parent?, split_rooted all (by simp), turned, List.reverse_reverse,
    dropIdle_names named]
  rfl

/-- **The way from a directory to a path below it** is made of the names behind those of the
directory. -/
theorem stripBase?_rooted (baseNamed : ∀ text ∈ base, IsName text)
    (named : ∀ text ∈ texts, IsName text) (nonempty : texts ≠ []) :
    stripBase? (rooted base) (rooted (base ++ texts)) = some (relativeOf texts) := by
  have all : ∀ text ∈ base ++ texts, IsName text := List.forall_mem_append.mpr ⟨baseNamed, named⟩
  have begins : (parts (rooted base)).isPrefixOf (parts (rooted (base ++ texts))) = true := by
    rw [parts_rooted baseNamed, parts_rooted all, List.isPrefixOf_iff_prefix, List.map_append]
    exact ⟨texts.map .name, rfl⟩
  have counted : (parts (rooted base)).length - 1 = base.length := by
    rw [parts_rooted baseNamed]
    simp
  have filled : (parts (rooted base)).isEmpty = false := by
    rw [parts_rooted baseNamed]
    rfl
  simp only [stripBase?, begins, if_true, filled, Bool.false_eq_true, if_false,
    split_rooted all (by simpa using fun _ => nonempty), List.isEmpty_cons, counted,
    dropPieces_names baseNamed named, dropIdle_names named]
  rfl

/-! ## Clean relative paths -/

/-- A name behind names, a slash between them if there are any. Joining puts no second slash where
one stands already, and none before a first name. -/
theorem join_relativeOf_name {text : String} (named : ∀ text ∈ texts, IsName text)
    (last : IsName text) : join (relativeOf texts) text = relativeOf (texts ++ [text]) := by
  apply String.toList_inj.mp
  rw [toList_relativeOf, List.map_append, List.map_cons, List.map_nil,
    Text.joinWith_append_singleton]
  simp only [join, last.isAbsolute, Bool.false_eq_true, if_false, List.map_eq_nil_iff]
  by_cases none : texts = []
  · rw [none, if_pos (by rfl), if_pos rfl]
  · obtain ⟨first, others, rfl⟩ := List.exists_cons_of_ne_nil none
    have filled : (relativeOf (first :: others)).toList ≠ [] := by
      rw [toList_relativeOf]
      exact Text.joinWith_cons_ne_nil (named first List.mem_cons_self).ne_nil _ _
    have nonempty : ¬ (relativeOf (first :: others)).isEmpty = true := by
      rw [String.isEmpty_iff]
      exact fun empty => filled (empty ▸ rfl)
    have unslashed : ¬ ((relativeOf (first :: others)).toList.getLast? == some '/') = true := by
      have ends := getLast?_rooted named none
      rw [toList_rooted, ← toList_relativeOf, List.getLast?_cons_of_ne_nil filled] at ends
      simpa using ends
    rw [if_neg nonempty, if_neg unslashed, if_neg none, String.toList_append, String.toList_append,
      toList_relativeOf]
    rfl

/-- Names are put together as a relative path. -/
theorem ofParts_names (named : ∀ text ∈ texts, IsName text) :
    ofParts (texts.map .name) = relativeOf texts := by
  induction texts using List.reverseRecOn with
  | nil => rfl
  | append_singleton texts text ih =>
    have leading : ∀ other ∈ texts, IsName other := fun other mem => named other (by simp [mem])
    have begun : ofParts (texts.map .name) = relativeOf texts := ih leading
    rw [← join_relativeOf_name leading (named text (by simp)), ← begun, ofParts, ofParts,
      List.map_append, List.foldl_append]
    rfl

/-- The parts of a relative path without `..` are names, but for a dot at the beginning. A part is
of one of these kinds, and the root only comes first in an absolute path. -/
theorem name_of_mem_parts {path : String} {part : Part} (relative : isAbsolute path = false)
    (below : .parent ∉ parts path) (mem : part ∈ parts path) :
    part = .current ∨ ∃ text, IsName text ∧ part = .name text := by
  have listed := mem
  simp only [parts, relative, Bool.false_eq_true, if_false] at listed
  rcases List.mem_append.mp listed with lead | rest
  · split at lead
    · exact .inl (List.mem_singleton.mp lead)
    · cases lead
  · obtain ⟨piece, cut, found⟩ := List.mem_filterMap.mp rest
    rcases partOf?_cases piece with none | back | ⟨text, named⟩
    · rw [none] at found
      cases found
    · rw [back] at found
      cases found
      exact absurd mem below
    · rw [named] at found
      cases found
      exact .inr ⟨text, isName_of_partOf? (Text.not_mem_of_mem_cutAll cut) named, rfl⟩

/-- Cleaning keeps all names where there is no `..`. Only `..` takes a name away again, and a dot
adds none. -/
theorem exists_foldl_cleanStep (found : List Part)
    (plain : ∀ part ∈ found, part = .current ∨ ∃ text, IsName text ∧ part = .name text)
    (kept : List Part) : ∃ texts : List String, (∀ text ∈ texts, IsName text) ∧
      found.foldl cleanStep kept = (texts.map .name).reverse ++ kept := by
  induction found generalizing kept with
  | nil => exact ⟨[], ⟨fun _ mem => absurd mem List.not_mem_nil, rfl⟩⟩
  | cons part found ih =>
    have later := fun other mem => plain other (List.mem_cons_of_mem part mem)
    rcases plain part List.mem_cons_self with rfl | ⟨text, named, rfl⟩
    · have same : cleanStep kept .current = kept := by cases kept <;> rfl
      rw [List.foldl_cons, same]
      exact ih later kept
    · have pushed : cleanStep kept (.name text) = .name text :: kept := by cases kept <;> rfl
      obtain ⟨texts, others, folded⟩ := ih later (.name text :: kept)
      refine ⟨text :: texts, by simpa using ⟨named, others⟩, ?_⟩
      rw [List.foldl_cons, pushed, folded]
      simp

/-- **A clean relative path without `..`** is the place itself, or made of names. Cleaning gives
back the path, so the path is what its names are joined to. -/
theorem exists_relativeOf_of_clean {path : String} (relative : isAbsolute path = false)
    (cleaned : clean path = path) (below : .parent ∉ parts path) :
    path = "." ∨ ∃ texts, texts ≠ [] ∧ (∀ text ∈ texts, IsName text) ∧ path = relativeOf texts := by
  obtain ⟨texts, named, kept⟩ := exists_foldl_cleanStep (parts path)
    (fun part mem => name_of_mem_parts relative below mem) []
  rw [List.append_nil] at kept
  rw [clean, kept] at cleaned
  by_cases none : texts = []
  · rw [none] at cleaned
    exact .inl cleaned.symm
  · refine .inr ⟨texts, none, named, ?_⟩
    rw [← ofParts_names named, ← cleaned]
    split
    next empty => exact absurd empty (by simpa using none)
    next => rw [List.reverse_reverse]

end StyleGraph.Path
