import Mathlib.Data.List.Induction
import StyleGraph.Path.Basic
import StyleGraph.Proofs.Text.Cut

/-!
# Absolute paths as lists of names

The parts of an absolute path, taken one after the other from the root, leave a list of names: a
name is entered, `..` goes back. `Path.clean` writes that list down again (`clean_of_isAbsolute`),
so a clean absolute path is a slash before each name (`rooted`), and cleaning changes nothing that
is written so (`clean_rooted`).

Paths that do not begin at the root stay out of it. Of them it is only shown that cleaning does not
make them absolute, and that of any path the parts, and what is written from them again, hold no
characters but slashes, dots and those of the path (`not_mem_clean`).
-/

set_option autoImplicit false

namespace StyleGraph.Path

/-! ## Names -/

/-- A text that can stand between two slashes and names something there. -/
def IsName (text : String) : Prop :=
  '/' ∉ text.toList ∧ partOf? text.toList = some (.name text)

/-- The part that a piece stands for, if it stands for a name, is the piece itself. -/
theorem eq_of_partOf?_eq_name {piece : List Char} {text : String}
    (found : partOf? piece = some (.name text)) : piece = text.toList := by
  unfold partOf? at found
  split at found
  · cases found
  · cases found
  · cases found
  · cases found
    rw [String.toList_ofList]

/-- What stands between two slashes and is a name can stand there. -/
theorem isName_of_partOf? {piece : List Char} {text : String} (absent : '/' ∉ piece)
    (found : partOf? piece = some (.name text)) : IsName text := by
  have same := eq_of_partOf?_eq_name found
  exact ⟨same ▸ absent, same ▸ found⟩

/-- A name is not empty. -/
theorem IsName.ne_nil {text : String} (named : IsName text) : text.toList ≠ [] := by
  intro empty
  have found := named.2
  rw [empty] at found
  cases found

/-- A piece is a name, goes back, or does not count. -/
theorem partOf?_cases (piece : List Char) :
    partOf? piece = none ∨ partOf? piece = some .parent ∨
      ∃ text, partOf? piece = some (.name text) := by
  unfold partOf?
  split
  · exact .inl rfl
  · exact .inl rfl
  · exact .inr (.inl rfl)
  · exact .inr (.inr ⟨_, rfl⟩)

/-- Where a part leads from the place that names stand for. -/
def advance (names : List String) : Part → List String
  | .parent => names.dropLast
  | .name text => names ++ [text]
  | _ => names

/-- Where a piece leads from the place that names stand for. -/
def step (names : List String) (piece : List Char) : List String :=
  (partOf? piece).elim names (advance names)

/-- Where pieces lead from the place that names stand for. -/
def follow (names : List String) (pieces : List (List Char)) : List String :=
  pieces.foldl step names

/-- The names that an absolute path leaves. -/
def names (path : String) : List String := follow [] (Text.cutAll '/' path.toList)

/-- No piece leads nowhere else. -/
theorem follow_nil (base : List String) : follow base [] = base := rfl

/-- Pieces are followed one by one from the left. -/
theorem follow_cons (base : List String) (piece : List Char) (pieces : List (List Char)) :
    follow base (piece :: pieces) = follow (step base piece) pieces := rfl

/-- A piece that does not count leads nowhere else. -/
theorem step_of_none {piece : List Char} (found : partOf? piece = none) (base : List String) :
    step base piece = base := by
  rw [step, found, Option.elim_none]

/-- A piece that is a part leads where the part leads. -/
theorem step_of_some {piece : List Char} {part : Part} (found : partOf? piece = some part)
    (base : List String) : step base piece = advance base part := by
  rw [step, found, Option.elim_some]

/-- Only names are left. A piece that is no name is idle or a step back, and neither adds anything.
-/
theorem isName_of_mem_follow {pieces : List (List Char)} {base : List String}
    (absent : ∀ piece ∈ pieces, '/' ∉ piece) (named : ∀ text ∈ base, IsName text) :
    ∀ text ∈ follow base pieces, IsName text := by
  induction pieces generalizing base with
  | nil => exact named
  | cons piece pieces ih =>
    have tailAbsent := fun other mem => absent other (List.mem_cons_of_mem piece mem)
    rw [follow_cons]
    rcases partOf?_cases piece with found | found | ⟨text, found⟩
    · rw [step_of_none found]
      exact ih tailAbsent named
    · rw [step_of_some found]
      exact ih tailAbsent fun text mem => named text (List.dropLast_subset _ mem)
    · rw [step_of_some found]
      refine ih tailAbsent fun other mem => ?_
      rcases List.mem_append.mp mem with mem | mem
      · exact named other mem
      · rw [List.mem_singleton.mp mem]
        exact isName_of_partOf? (absent piece List.mem_cons_self) found

/-- The names of a path are names. -/
theorem isName_of_mem_names {path text : String} (mem : text ∈ names path) : IsName text :=
  isName_of_mem_follow (fun _ mem => Text.not_mem_of_mem_cutAll mem)
    (fun _ mem => absurd mem List.not_mem_nil) text mem

/-- Names are followed by entering them one after the other. -/
theorem follow_names {texts : List String} (named : ∀ text ∈ texts, IsName text)
    (base : List String) : follow base (texts.map String.toList) = base ++ texts := by
  induction texts generalizing base with
  | nil => simp [follow_nil]
  | cons text texts ih =>
    have found := (named text List.mem_cons_self).2
    rw [List.map_cons, follow_cons, step_of_some found,
      ih fun other mem => named other (List.mem_cons_of_mem _ mem)]
    simp only [advance, List.append_assoc, List.singleton_append]

/-! ## Writing names down -/

/-- The clean absolute path of a list of names. -/
def rooted (texts : List String) : String :=
  String.ofList ('/' :: Text.joinWith ['/'] (texts.map String.toList))

/-- The characters of a path that is made of names: a slash in front of each. -/
theorem toList_rooted (texts : List String) :
    (rooted texts).toList = '/' :: Text.joinWith ['/'] (texts.map String.toList) :=
  String.toList_ofList

/-- Such a path is absolute, also if there are no names. -/
theorem isAbsolute_rooted (texts : List String) : isAbsolute (rooted texts) = true := by
  simp only [isAbsolute, toList_rooted, List.head?_cons, beq_self_eq_true]

/-- The pieces of a path that is written so: nothing before the first slash, then the names. -/
theorem cutAll_rooted {texts : List String} (named : ∀ text ∈ texts, IsName text)
    (nonempty : texts ≠ []) :
    Text.cutAll '/' (Text.joinWith ['/'] (texts.map String.toList)) = texts.map String.toList := by
  refine Text.cutAll_joinWith ?_ (by simpa using nonempty)
  intro piece mem
  obtain ⟨text, listed, rfl⟩ := List.mem_map.mp mem
  exact (named text listed).1

/-- The names of a path that is written so. -/
theorem names_rooted {texts : List String} (named : ∀ text ∈ texts, IsName text) :
    names (rooted texts) = texts := by
  have lead : partOf? [] = none := rfl
  rw [names, toList_rooted]
  simp only [Text.cutAll, if_true]
  rw [follow_cons, step_of_none lead]
  cases texts with
  | nil =>
    simp only [List.map_nil, Text.joinWith, Text.cutAll]
    rw [follow_cons, step_of_none lead, follow_nil]
  | cons text texts =>
    rw [cutAll_rooted named (by simp), follow_names named, List.nil_append]

/-! ## Cleaning -/

/-- The parts that are kept for names, the last first. -/
private def keptOf (texts : List String) : List Part := (texts.map Part.name).reverse ++ [.root]

/-- Cleaning keeps a name. -/
private theorem cleanStep_name (texts : List String) (text : String) :
    cleanStep (keptOf texts) (.name text) = keptOf (texts ++ [text]) := by
  have pushed : cleanStep (keptOf texts) (.name text) = .name text :: keptOf texts := by
    cases keptOf texts <;> rfl
  rw [pushed]
  simp only [keptOf, List.map_append, List.map_cons, List.map_nil, List.reverse_append,
    List.reverse_cons, List.reverse_nil, List.nil_append, List.cons_append]

/-- Cleaning takes the last name away at a step to the parent, and does nothing at the root. -/
private theorem cleanStep_parent (texts : List String) :
    cleanStep (keptOf texts) .parent = keptOf texts.dropLast := by
  induction texts using List.reverseRecOn with
  | nil => rfl
  | append_singleton texts text _ =>
    simp only [keptOf, List.map_append, List.map_cons, List.map_nil, List.reverse_append,
      List.reverse_cons, List.reverse_nil, List.nil_append, List.cons_append, cleanStep,
      List.dropLast_concat]

/-- Cleaning keeps the parts of the names that the pieces leave. Both go from piece to piece in the
same way, one on names and one on parts in reverse. -/
private theorem foldl_cleanStep (pieces : List (List Char)) (texts : List String) :
    (pieces.filterMap partOf?).foldl cleanStep (keptOf texts) = keptOf (follow texts pieces) := by
  induction pieces generalizing texts with
  | nil => rfl
  | cons piece pieces ih =>
    rcases partOf?_cases piece with found | found | ⟨text, found⟩
    · rw [follow_cons, step_of_none found, List.filterMap_cons, found]
      exact ih texts
    · rw [follow_cons, step_of_some found, List.filterMap_cons, found]
      simp only [List.foldl_cons, cleanStep_parent]
      exact ih _
    · rw [follow_cons, step_of_some found, List.filterMap_cons, found]
      simp only [List.foldl_cons, cleanStep_name]
      exact ih _

/-- No name ends in a slash, so a path that is written so does not either, unless it is the root. -/
theorem getLast?_rooted {texts : List String} (named : ∀ text ∈ texts, IsName text)
    (nonempty : texts ≠ []) : (rooted texts).toList.getLast? ≠ some '/' := by
  cases texts using List.reverseRecOn with
  | nil => exact absurd rfl nonempty
  | append_singleton texts last _ =>
    have lastNamed := named last (by simp)
    have ends : (rooted (texts ++ [last])).toList.getLast? = last.toList.getLast? := by
      rw [toList_rooted, List.map_append, List.map_cons, List.map_nil,
        Text.joinWith_append_singleton]
      obtain ⟨c, rest, chars⟩ := List.exists_cons_of_ne_nil lastNamed.ne_nil
      split <;> simp [chars, List.getLast?_cons]
    rw [ends]
    intro slash
    exact lastNamed.1 (List.mem_of_getLast? slash)

/-- A relative path behind a path that is written so, a slash between them unless that one is the
root. -/
theorem toList_join_rooted {texts : List String} (named : ∀ text ∈ texts, IsName text)
    {path : String} (relative : isAbsolute path = false) :
    (join (rooted texts) path).toList =
      '/' :: if texts = [] then path.toList
        else Text.joinWith ['/'] (texts.map String.toList) ++ '/' :: path.toList := by
  have nonempty : (rooted texts).isEmpty = false := by
    rw [← Bool.not_eq_true, String.isEmpty_iff]
    intro empty
    have chars := toList_rooted texts
    rw [empty] at chars
    cases chars
  simp only [join, relative, nonempty, Bool.false_eq_true, if_false]
  by_cases root : texts = []
  · subst root
    rw [if_pos (by rfl), if_pos rfl, String.toList_append, toList_rooted]
    rfl
  · rw [if_neg (by simpa using getLast?_rooted named root), if_neg root, String.toList_append,
      String.toList_append, toList_rooted]
    simp

/-- A name does not begin at the root. -/
theorem IsName.isAbsolute {text : String} (named : IsName text) : isAbsolute text = false := by
  simp only [Path.isAbsolute, beq_eq_false_iff_ne, ne_eq]
  intro leads
  exact named.1 (List.mem_of_mem_head? leads)

/-- A name is joined to such a path behind a slash. -/
private theorem join_rooted {texts : List String} {text : String}
    (named : ∀ text ∈ texts, IsName text) (added : IsName text) :
    join (rooted texts) text = rooted (texts ++ [text]) := by
  apply String.toList_inj.mp
  rw [toList_join_rooted named added.isAbsolute, toList_rooted, List.map_append, List.map_cons,
    List.map_nil, Text.joinWith_append_singleton]
  simp only [List.map_eq_nil_iff, List.append_assoc, List.singleton_append]

/-- Names are joined one after the other. By induction on the names that are added; the path stays
one that is written from names. -/
private theorem foldl_join {texts more : List String} (named : ∀ text ∈ texts, IsName text)
    (moreNamed : ∀ text ∈ more, IsName text) :
    (more.map Part.name).foldl (fun path part => join path part.text) (rooted texts) =
      rooted (texts ++ more) := by
  induction more generalizing texts with
  | nil => simp
  | cons text more ih =>
    have added := moreNamed text List.mem_cons_self
    have entered : join (rooted texts) (Part.name text).text = rooted (texts ++ [text]) :=
      join_rooted named added
    rw [List.map_cons, List.foldl_cons, entered,
      ih _ fun other mem => moreNamed other (List.mem_cons_of_mem _ mem)]
    · simp only [List.append_assoc, List.singleton_append]
    · intro other mem
      rcases List.mem_append.mp mem with mem | mem
      · exact named other mem
      · exact List.mem_singleton.mp mem ▸ added

/-- What cleaning keeps is put together as a path of names again. -/
private theorem ofParts_keptOf {texts : List String} (named : ∀ text ∈ texts, IsName text) :
    ofParts (keptOf texts).reverse = rooted texts := by
  have begun : join "" Part.root.text = rooted [] := rfl
  simp only [keptOf, List.reverse_append, List.reverse_cons, List.reverse_nil, List.nil_append,
    List.reverse_reverse, List.singleton_append]
  rw [ofParts, List.foldl_cons, begun,
    foldl_join (fun _ mem => absurd mem List.not_mem_nil) named, List.nil_append]

/-- The parts of an absolute path: the root, then the parts that its pieces stand for. -/
theorem parts_of_isAbsolute {path : String} (absolute : isAbsolute path = true) :
    parts path = .root :: (Text.cutAll '/' path.toList).filterMap partOf? := by
  simp only [parts, absolute, if_true, List.singleton_append]

/-- **A clean absolute path is the names that the path leaves, written down.** -/
theorem clean_of_isAbsolute {path : String} (absolute : isAbsolute path = true) :
    clean path = rooted (names path) := by
  have first : cleanStep [] .root = keptOf [] := rfl
  have kept : (parts path).foldl cleanStep [] = keptOf (names path) := by
    rw [parts_of_isAbsolute absolute, List.foldl_cons, first, foldl_cleanStep]
    rfl
  have written := ofParts_keptOf fun text (mem : text ∈ names path) => isName_of_mem_names mem
  unfold clean
  rw [kept]
  split
  next empty => simp [keptOf] at empty
  next => exact written

/-- What is written so is clean. -/
theorem clean_rooted {texts : List String} (named : ∀ text ∈ texts, IsName text) :
    clean (rooted texts) = rooted texts := by
  rw [clean_of_isAbsolute (isAbsolute_rooted texts), names_rooted named]

/-! ## Joining -/

/-- A path behind a path from the root begins at the root. -/
theorem isAbsolute_join_of_isAbsolute {base : String} (absolute : isAbsolute base = true)
    (path : String) : isAbsolute (join base path) = true := by
  unfold join
  split
  next rooted => exact rooted
  next =>
    split
    next empty => rw [String.isEmpty_iff.mp empty] at absolute; cases absolute
    next =>
      have leads : base.toList.head? = some '/' := beq_iff_eq.mp absolute
      split <;> simp [isAbsolute, List.head?_append, leads]

/-- A path from the root with a relative path behind it leads where the pieces of the second one
lead from the first. -/
theorem names_join {base path : String} (absolute : isAbsolute base = true)
    (relative : isAbsolute path = false) :
    names (join base path) = follow (names base) (Text.cutAll '/' path.toList) := by
  have nonempty : base.isEmpty = false := by
    rw [← Bool.not_eq_true, String.isEmpty_iff]
    rintro rfl
    cases absolute
  unfold join
  rw [if_neg (by simp [relative]), if_neg (by simp [nonempty])]
  split
  next closed =>
    obtain ⟨lead, chars⟩ := List.getLast?_eq_some_iff.mp (beq_iff_eq.mp closed)
    have idle : Text.cutAll '/' ([] : List Char) = [[]] := rfl
    rw [names, names, String.toList_append, chars, List.append_assoc, List.singleton_append,
      Text.cutAll_append_sep, Text.cutAll_append_sep, idle]
    simp only [follow, List.foldl_append]
    rfl
  next =>
    have chars : (base ++ "/" ++ path).toList = base.toList ++ '/' :: path.toList := by simp
    rw [names, names, chars, Text.cutAll_append_sep]
    simp only [follow, List.foldl_append]

/-! ## Names with another end -/

/-- What is long enough and holds no slash is a name. -/
theorem isName_of_three_le {cs : List Char} (absent : '/' ∉ cs) (long : 3 ≤ cs.length) :
    IsName (String.ofList cs) := by
  rw [IsName, String.toList_ofList]
  refine ⟨absent, ?_⟩
  unfold partOf?
  split <;> simp_all

/-- A last name comes behind a slash, and what stands before it does not depend on it. -/
theorem exists_lead_rooted (texts : List String) :
    ∃ lead, ∀ text, (rooted (texts ++ [text])).toList = lead ++ '/' :: text.toList := by
  by_cases empty : texts = []
  · refine ⟨[], fun text => ?_⟩
    rw [toList_rooted, empty]
    rfl
  · refine ⟨'/' :: Text.joinWith ['/'] (texts.map String.toList), fun text => ?_⟩
    rw [toList_rooted, List.map_append, List.map_cons, List.map_nil,
      Text.joinWith_append_singleton, if_neg (by simpa using empty)]
    simp

/-- **Another end keeps a path clean**, when neither end holds a slash and the new one is long
enough to be a name. -/
theorem clean_stem {texts : List String} {stem tail ending : List Char}
    (named : ∀ text ∈ texts, IsName text) (written : (rooted texts).toList = stem ++ tail)
    (tailAbsent : '/' ∉ tail) (absent : '/' ∉ ending) (long : 3 ≤ ending.length) :
    clean (String.ofList (stem ++ ending)) = String.ofList (stem ++ ending) := by
  -- The last name may be cut anywhere, but never before the slash in front of it.
  obtain ⟨before, lead, last, beforeNamed, lastAbsent, chars, leads⟩ :
      ∃ before lead last, (∀ text ∈ before, IsName text) ∧ '/' ∉ last ∧
        (rooted texts).toList = lead ++ '/' :: last ∧
        ∀ text, (rooted (before ++ [text])).toList = lead ++ '/' :: text.toList := by
    cases texts using List.reverseRecOn with
    | nil =>
      obtain ⟨lead, leads⟩ := exists_lead_rooted []
      have none : lead = [] := by simpa [toList_rooted, Text.joinWith] using (leads "").symm
      exact ⟨[], lead, [], named, by simp, by rw [none]; rfl, leads⟩
    | append_singleton before text =>
      obtain ⟨lead, leads⟩ := exists_lead_rooted before
      exact ⟨before, lead, text.toList, fun other mem => named other (by simp [mem]),
        (named text (by simp)).1, leads text, leads⟩
  obtain ⟨kept, stemmed, cut⟩ : ∃ kept, stem = lead ++ '/' :: kept ∧ last = kept ++ tail := by
    rw [written] at chars
    rcases List.append_eq_append_iff.mp chars with ⟨more, leadEq, tailEq⟩ | ⟨more, stemEq, lastEq⟩
    · exact absurd (tailEq ▸ by simp) tailAbsent
    · cases more with
      | nil =>
        rw [List.nil_append] at lastEq
        exact absurd (lastEq ▸ List.mem_cons_self) tailAbsent
      | cons c kept =>
        obtain ⟨rfl, rfl⟩ := List.cons_eq_cons.mp lastEq
        exact ⟨kept, stemEq, rfl⟩
  have keptAbsent : '/' ∉ kept := fun mem => lastAbsent (cut ▸ List.mem_append_left _ mem)
  have newAbsent : '/' ∉ kept ++ ending := by simp [keptAbsent, absent]
  have newNamed := isName_of_three_le newAbsent (by rw [List.length_append]; omega)
  have same :
      String.ofList (stem ++ ending) = rooted (before ++ [String.ofList (kept ++ ending)]) := by
    apply String.toList_inj.mp
    rw [leads, String.toList_ofList, String.toList_ofList, stemmed]
    simp
  rw [same]
  refine clean_rooted fun text mem => ?_
  rcases List.mem_append.mp mem with mem | mem
  · exact beforeNamed text mem
  · exact List.mem_singleton.mp mem ▸ newNamed

/-- A name stays one when something without a slash is put behind it. Only a dot or two dots are no
names, and a name with something behind it is neither. -/
theorem IsName.append {text : String} {ending : List Char} (named : IsName text)
    (absent : '/' ∉ ending) : IsName (String.ofList (text.toList ++ ending)) := by
  obtain ⟨c, rest, chars⟩ := List.exists_cons_of_ne_nil named.ne_nil
  have notDot : text.toList ≠ ['.'] := by
    intro dot
    have found := named.2
    rw [dot] at found
    cases found
  have notDots : text.toList ≠ ['.', '.'] := by
    intro dots
    have found := named.2
    rw [dots] at found
    cases found
  rw [IsName, String.toList_ofList]
  refine ⟨by simp [named.1, absent], ?_⟩
  rw [chars] at notDot notDots ⊢
  unfold partOf?
  -- the texts that are no names have at most two characters
  cases rest <;> split <;> simp_all

/-- **What is put behind a path keeps it clean**, if it holds no slash and the path has a name. It
goes to the last name, which stays a name, and a path that is written from names is clean. -/
theorem clean_append {texts : List String} {ending : List Char} (nonempty : texts ≠ [])
    (named : ∀ text ∈ texts, IsName text) (absent : '/' ∉ ending) :
    clean (String.ofList ((rooted texts).toList ++ ending)) =
      String.ofList ((rooted texts).toList ++ ending) := by
  cases texts using List.reverseRecOn with
  | nil => exact absurd rfl nonempty
  | append_singleton before text =>
    obtain ⟨lead, leads⟩ := exists_lead_rooted before
    have same : String.ofList ((rooted (before ++ [text])).toList ++ ending) =
        rooted (before ++ [String.ofList (text.toList ++ ending)]) := by
      apply String.toList_inj.mp
      rw [String.toList_ofList, leads, leads, String.toList_ofList]
      simp
    rw [same]
    refine clean_rooted fun other mem => ?_
    rcases List.mem_append.mp mem with mem | mem
    · exact named other (by simp [mem])
    · exact List.mem_singleton.mp mem ▸ (named text (by simp)).append absent

/-! ## Other paths -/

/-- A part that is not the root does not begin with a slash. A piece between slashes holds none, so
its name does not begin with one. -/
private theorem isAbsolute_text {part : Part} {path : String} (listed : part ∈ parts path)
    (differs : part ≠ .root) : isAbsolute part.text = false := by
  cases part with
  | root => exact absurd rfl differs
  | current => rfl
  | parent => rfl
  | name text =>
    have found : ∃ piece ∈ Text.cutAll '/' path.toList, partOf? piece = some (.name text) := by
      rcases List.mem_append.mp listed with lead | rest
      · split at lead
        · simp at lead
        · split at lead <;> simp at lead
      · exact List.mem_filterMap.mp rest
    obtain ⟨piece, cut, found⟩ := found
    have named := isName_of_partOf? (Text.not_mem_of_mem_cutAll cut) found
    simp only [isAbsolute, Part.text, beq_eq_false_iff_ne, ne_eq]
    intro leads
    exact named.1 (List.mem_of_mem_head? leads)

/-- What is kept are parts of the path. -/
theorem mem_of_mem_cleanStep {kept : List Part} {part other : Part}
    (mem : other ∈ cleanStep kept part) : other ∈ kept ∨ other = part := by
  unfold cleanStep at mem
  split at mem
  · exact .inl mem
  · exact .inl mem
  · exact .inl (List.mem_cons_of_mem _ mem)
  · exact (List.mem_cons.mp mem).symm

/-- Cleaning makes no parts up: what is kept was there. -/
theorem mem_of_mem_foldl_cleanStep {found kept : List Part} {other : Part}
    (mem : other ∈ found.foldl cleanStep kept) : other ∈ kept ∨ other ∈ found := by
  induction found generalizing kept with
  | nil => exact .inl mem
  | cons part found ih =>
    rcases ih mem with before | later
    · rcases mem_of_mem_cleanStep before with before | rfl
      · exact .inl before
      · exact .inr List.mem_cons_self
    · exact .inr (List.mem_cons_of_mem _ later)

/-- Relative paths are joined to a relative one. The joined path begins as the first one does,
unless that is empty. -/
private theorem isAbsolute_join {base path : String} (relative : isAbsolute base = false)
    (tailRelative : isAbsolute path = false) : isAbsolute (join base path) = false := by
  unfold join
  rw [if_neg (by simp [tailRelative])]
  split
  · exact tailRelative
  next nonempty =>
    have begins : base.toList ≠ [] := fun empty =>
      nonempty (String.isEmpty_iff.mpr (String.toList_inj.mp empty))
    obtain ⟨c, rest, chars⟩ := List.exists_cons_of_ne_nil begins
    have differs : (some c == some '/') = false := by
      simpa only [isAbsolute, chars, List.head?_cons] using relative
    split <;> simp only [isAbsolute, String.toList_append, chars, List.cons_append,
      List.head?_cons, differs]

/-- The same for any number of parts. -/
private theorem isAbsolute_foldl_join {found : List Part} {base : String}
    (relative : isAbsolute base = false)
    (tailRelative : ∀ part ∈ found, isAbsolute part.text = false) :
    isAbsolute (found.foldl (fun path part => join path part.text) base) = false := by
  induction found generalizing base with
  | nil => exact relative
  | cons part found ih =>
    exact ih (isAbsolute_join relative (tailRelative part List.mem_cons_self))
      fun other mem => tailRelative other (List.mem_cons_of_mem _ mem)

/-- Cleaning makes no path absolute. The root is a part that cleaning keeps, and never one that it
adds. -/
theorem isAbsolute_of_isAbsolute_clean {path : String} (absolute : isAbsolute (clean path) = true) :
    isAbsolute path = true := by
  by_contra relative
  have rootless : .root ∉ parts path := by
    intro mem
    rcases List.mem_append.mp mem with lead | rest
    · rw [if_neg relative] at lead
      split at lead <;> simp at lead
    · obtain ⟨piece, _, found⟩ := List.mem_filterMap.mp rest
      rcases partOf?_cases piece with h | h | ⟨_, h⟩ <;> rw [h] at found <;> cases found
  have keptRelative : ∀ part ∈ (parts path).foldl cleanStep [], isAbsolute part.text = false := by
    intro part mem
    rcases mem_of_mem_foldl_cleanStep mem with none | listed
    · exact absurd none List.not_mem_nil
    · exact isAbsolute_text listed fun root => rootless (root ▸ listed)
  have writtenRelative : isAbsolute (clean path) = false := by
    unfold clean
    split
    · rfl
    next =>
      refine isAbsolute_foldl_join rfl fun part mem => ?_
      exact keptRelative part (List.mem_reverse.mp mem)
  rw [writtenRelative] at absolute
  cases absolute

/-- A path that is absolute after cleaning is written as a list of names. -/
theorem exists_rooted_of_isAbsolute_clean {path : String}
    (absolute : isAbsolute (clean path) = true) :
    ∃ texts, (∀ text ∈ texts, IsName text) ∧ clean path = rooted texts :=
  ⟨names path, fun _ mem => isName_of_mem_names mem,
    clean_of_isAbsolute (isAbsolute_of_isAbsolute_clean absolute)⟩

/-! ## Characters -/

section Characters

variable {c : Char} (slash : c ≠ '/') (dot : c ≠ '.')

include slash dot

/-- A part holds what the path holds. A name is a piece of the path, and the other parts are written
with a slash or dots only. -/
theorem not_mem_text {path : String} {part : Part} (listed : part ∈ parts path)
    (absent : c ∉ path.toList) : c ∉ part.text.toList := by
  cases part with
  | root => simpa [Part.text] using slash
  | current => simpa [Part.text] using dot
  | parent => simpa [Part.text] using dot
  | name text =>
    obtain ⟨piece, cut, found⟩ : ∃ piece ∈ Text.cutAll '/' path.toList,
        partOf? piece = some (.name text) := by
      rcases List.mem_append.mp listed with lead | rest
      · split at lead
        · simp at lead
        · split at lead <;> simp at lead
      · exact List.mem_filterMap.mp rest
    intro mem
    rw [Part.text, ← eq_of_partOf?_eq_name found] at mem
    exact absent (Text.mem_of_mem_cutAll cut mem)

omit dot in
/-- Joining adds slashes only, so a character that neither path has is not in the joined one. -/
theorem not_mem_join {base path : String} (baseAbsent : c ∉ base.toList)
    (absent : c ∉ path.toList) : c ∉ (join base path).toList := by
  unfold join
  repeat' split
  all_goals simp [baseAbsent, absent, slash]

omit dot in
/-- The same for any number of parts. -/
theorem not_mem_foldl_join {found : List Part} (absent : ∀ part ∈ found, c ∉ part.text.toList)
    {base : String} (baseAbsent : c ∉ base.toList) :
    c ∉ (found.foldl (fun path part => join path part.text) base).toList := by
  induction found generalizing base with
  | nil => exact baseAbsent
  | cons part found ih =>
    exact ih (fun other mem => absent other (List.mem_cons_of_mem _ mem))
      (not_mem_join slash baseAbsent (absent part List.mem_cons_self))

/-- Cleaning adds nothing but slashes and dots. -/
theorem not_mem_clean {path : String} (absent : c ∉ path.toList) : c ∉ (clean path).toList := by
  unfold clean
  split
  · simpa using dot
  next kept _ =>
    have each : ∀ part ∈ (parts path).foldl cleanStep [], c ∉ part.text.toList := by
      intro part mem
      rcases mem_of_mem_foldl_cleanStep mem with none | listed
      · exact absurd none List.not_mem_nil
      · exact not_mem_text slash dot listed absent
    exact not_mem_foldl_join slash (fun part mem => each part (List.mem_reverse.mp mem)) (by simp)

end Characters

end StyleGraph.Path
