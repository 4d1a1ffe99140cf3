import StyleGraph.Proofs.Path.Extension
import StyleGraph.Proofs.Specifier
import StyleGraph.Request.Proxy

/-!
# The way from a directory to a resource

A request that was not written by hand names its resource by the way that leads there from the root
directory: back out of the names that the two paths do not share, then in. Whoever takes that way
from the directory arrives at the resource (`clean_join_relativePath`).

The way is meant to be read as a relative specifier. `relativePath_leads` says when it is one:
always, unless the resource lies below the directory and the first name to enter begins with two
dots. Such a name looks like a step back, so no `./` is put before it, and the request reads as the
name of a package (`relativePath_of_dots`).
-/

set_option autoImplicit false

namespace StyleGraph

namespace Path

/-! ## Routes -/

/-- A part the two paths share is no part of the route. -/
theorem routeParts_cons_cons (part : Part) (base target : List Part) :
    routeParts (part :: base) (part :: target) = routeParts base target := by
  simp only [routeParts, commonLength, if_true, List.length_cons, Nat.add_sub_add_right,
    List.drop_succ_cons]

/-- **A route leaves the names that are not shared and enters the names that are left.** These two
do not begin with the same name. -/
theorem exists_routeParts_eq (base target : List String) :
    ∃ common left entered, base = common ++ left ∧ target = common ++ entered ∧
      routeParts (base.map .name) (target.map .name) =
        List.replicate left.length .parent ++ entered.map .name ∧
      ∀ text, left.head? = some text → entered.head? ≠ some text := by
  induction base generalizing target with
  | nil => exact ⟨[], [], target, rfl, rfl, rfl, fun _ leads => nomatch leads⟩
  | cons text base ih =>
    cases target with
    | nil =>
      refine ⟨[], text :: base, [], rfl, rfl, ?_, fun _ _ leads => nomatch leads⟩
      simp [routeParts, commonLength]
    | cons other target =>
      by_cases same : text = other
      · subst same
        obtain ⟨common, left, entered, rfl, rfl, route, apart⟩ := ih target
        refine ⟨text :: common, left, entered, rfl, rfl, ?_, apart⟩
        rw [List.map_cons, List.map_cons, routeParts_cons_cons, route]
      · refine ⟨[], text :: base, other :: target, rfl, rfl, ?_, ?_⟩
        · simp [routeParts, commonLength, same]
        · rintro first leads
          cases leads
          simpa using Ne.symm same

/-- Joined pieces lead where the pieces lead. -/
theorem follow_cutAll_joinWith {pieces : List (List Char)}
    (absent : ∀ piece ∈ pieces, '/' ∉ piece) (base : List String) :
    follow base (Text.cutAll '/' (Text.joinWith ['/'] pieces)) = follow base pieces := by
  by_cases empty : pieces = []
  · subst empty
    rfl
  · rw [Text.cutAll_joinWith absent empty]

/-- Going back as often as there are names behind a place leads to that place. -/
theorem follow_replicate_parent (base left : List String) :
    follow (base ++ left) (List.replicate left.length ['.', '.']) = base := by
  have back : partOf? ['.', '.'] = some .parent := rfl
  induction left using List.reverseRecOn with
  | nil => simp [follow_nil]
  | append_singleton left text ih =>
    rw [List.length_append, List.length_singleton, List.replicate_succ, follow_cons,
      step_of_some back, advance, ← List.append_assoc, List.dropLast_concat, ih]

end Path

/-- What begins with a dot has no scheme and does not begin at the root, so it is relative or
names a package. -/
theorem Specifier.classify_of_dot {specifier : String} {rest : List Char}
    (chars : specifier.toList = '.' :: rest) :
    classify specifier = if isRelative specifier.toList then .relative else .bare := by
  have letterless : '.'.isAlpha = false := by decide
  have rootless : Path.isAbsolute specifier = false := by simp [Path.isAbsolute, chars]
  simp only [classify, rootless, Bool.false_eq_true, if_false, chars,
    scheme?_of_isAlpha_eq_false letterless]

namespace Request

open StyleGraph.Path (IsName names)

variable {directory resource : String}

/-- A resource lies below a directory, and the first name on the way to it begins with two dots. -/
def EntersDots (directory resource : String) : Prop :=
  ∃ name rest, names resource = names directory ++ name :: rest ∧
    Text.startsWith ['.', '.'] name.toList = true

/-- The way from a directory as text: as many steps back as there are names to leave, then the names
to enter. -/
def wayOf (left entered : List String) : List Char :=
  Text.joinWith ['/'] (List.replicate left.length ['.', '.'] ++ entered.map String.toList)

/-- **What a relative path consists of.** A way that does not begin with two dots has `./` before
it. -/
theorem exists_relativePath_eq (fromRoot : Path.isAbsolute directory = true)
    (toRoot : Path.isAbsolute resource = true) :
    ∃ common left entered, names directory = common ++ left ∧ names resource = common ++ entered ∧
      (∀ text, left.head? = some text → entered.head? ≠ some text) ∧
      (relativePath directory resource).toList =
        if Text.startsWith ['.', '.'] (wayOf left entered) then wayOf left entered
        else '.' :: '/' :: wayOf left entered := by
  have written : ∀ path, Path.isAbsolute path = true →
      Path.parts (Path.clean path) = .root :: (names path).map .name := by
    intro path absolute
    rw [Path.clean_of_isAbsolute absolute, Path.parts_rooted fun _ => Path.isName_of_mem_names]
  obtain ⟨common, left, entered, base, target, route, apart⟩ :=
    Path.exists_routeParts_eq (names directory) (names resource)
  refine ⟨common, left, entered, base, target, apart, ?_⟩
  have way : (String.intercalate "/" ((Path.routeParts (Path.parts (Path.clean directory))
      (Path.parts (Path.clean resource))).map Path.Part.text)).toList = wayOf left entered := by
    have back : Path.Part.parent.text.toList = ['.', '.'] := rfl
    have enter : String.toList ∘ Path.Part.text ∘ Path.Part.name = String.toList := rfl
    rw [written _ fromRoot, written _ toRoot, Path.routeParts_cons_cons, route,
      Text.toList_intercalate, wayOf]
    simp only [List.map_append, List.map_replicate, List.map_map, back, enter]
    rfl
  simp only [relativePath, way]
  split <;> simp [way]

/-- A way begins with a dot, as a relative path. -/
theorem exists_relativePath_eq_dot (fromRoot : Path.isAbsolute directory = true)
    (toRoot : Path.isAbsolute resource = true) :
    ∃ rest, (relativePath directory resource).toList = '.' :: rest := by
  obtain ⟨_, left, entered, _, _, _, chars⟩ := exists_relativePath_eq fromRoot toRoot
  rw [chars]
  split
  next dots =>
    obtain ⟨rest, begun⟩ := Text.startsWith_iff.mp dots
    exact ⟨'.' :: rest, begun⟩
  next => exact ⟨_, rfl⟩

/-- **The way leads to the resource.** The way goes up from the directory to the common part and
down from there. Cleaning takes the steps up back one by one, as the parts above are names. -/
theorem clean_join_relativePath (fromRoot : Path.isAbsolute directory = true)
    (toRoot : Path.isAbsolute resource = true) :
    Path.clean (Path.join directory (relativePath directory resource)) = Path.clean resource := by
  obtain ⟨rest, begun⟩ := exists_relativePath_eq_dot fromRoot toRoot
  have relative : Path.isAbsolute (relativePath directory resource) = false := by
    simp [Path.isAbsolute, begun]
  have joined := Path.isAbsolute_join_of_isAbsolute fromRoot (relativePath directory resource)
  obtain ⟨common, left, entered, base, target, _, chars⟩ := exists_relativePath_eq fromRoot toRoot
  have named : ∀ text ∈ entered, IsName text := by
    intro text mem
    have listed : text ∈ names resource := by simp [target, mem]
    exact Path.isName_of_mem_names listed
  have absent : ∀ piece ∈ List.replicate left.length ['.', '.'] ++ entered.map String.toList,
      '/' ∉ piece := by
    intro piece mem
    rcases List.mem_append.mp mem with back | enter
    · rw [List.eq_of_mem_replicate back]
      decide
    · obtain ⟨text, listed, rfl⟩ := List.mem_map.mp enter
      exact (named text listed).1
  have arrives : Path.follow (names directory) (Text.cutAll '/' (wayOf left entered)) =
      names resource := by
    rw [wayOf, Path.follow_cutAll_joinWith absent, base, target, Path.follow, List.foldl_append,
      ← Path.follow, ← Path.follow, Path.follow_replicate_parent, Path.follow_names named]
  have same : names (Path.join directory (relativePath directory resource)) = names resource := by
    rw [Path.names_join fromRoot relative, chars]
    split
    next => exact arrives
    next => exact arrives
  rw [Path.clean_of_isAbsolute joined, Path.clean_of_isAbsolute toRoot, same]

/-! ## Reading the way as a specifier -/

/-- A way with a first step has a slash or nothing behind it. -/
theorem exists_joinWith_cons_eq (piece : List Char) (pieces : List (List Char)) :
    ∃ tail, Text.joinWith ['/'] (piece :: pieces) = piece ++ tail ∧
      (tail = [] ∨ ∃ more, tail = '/' :: more) := by
  cases pieces with
  | nil => exact ⟨[], by simp [Text.joinWith], .inl rfl⟩
  | cons next pieces =>
    exact ⟨'/' :: Text.joinWith ['/'] (next :: pieces), by simp [Text.joinWith], .inr ⟨_, rfl⟩⟩

/-- A name of one character is no dot, so what stands behind a name does not give it two. -/
theorem startsWith_dots_append {name : String} (named : IsName name) (tail : List Char) :
    Text.startsWith ['.', '.'] (name.toList ++ tail) = Text.startsWith ['.', '.'] name.toList := by
  have counts := named.2
  cases chars : name.toList with
  | nil => exact absurd chars named.ne_nil
  | cons c rest =>
    cases rest with
    | nil =>
      have differs : '.' ≠ c := by
        rintro rfl
        rw [chars] at counts
        cases counts
      simp [Text.startsWith, Text.stripStart?, differs]
    | cons d rest =>
      simp only [List.cons_append, Text.startsWith, Text.stripStart?]
      split
      · split <;> rfl
      · rfl

/-- A name that begins with two dots is no step back, however the way goes on. A third character of
the name stands behind the dots, and it is no slash. -/
theorem isRelative_of_dots {name : String} (named : IsName name)
    (dots : Text.startsWith ['.', '.'] name.toList = true) (tail : List Char) :
    Specifier.isRelative (name.toList ++ tail) = false := by
  obtain ⟨rest, chars⟩ := Text.startsWith_iff.mp dots
  have counts := named.2
  have slashless := named.1
  cases rest with
  | nil =>
    rw [chars] at counts
    cases counts
  | cons c rest =>
    have differs : '/' ≠ c := by
      rintro rfl
      exact slashless (by simp [chars])
    simp [chars, Specifier.isRelative, Text.startsWith, Text.stripStart?, differs]

/-- **When the way is a relative specifier.** The way gets `./` only if it does not begin with two
dots, and a name can begin with them without being a step up. -/
theorem isRelative_relativePath_iff (fromRoot : Path.isAbsolute directory = true)
    (toRoot : Path.isAbsolute resource = true) :
    Specifier.isRelative (relativePath directory resource).toList = true ↔
      ¬ EntersDots directory resource := by
  obtain ⟨common, left, entered, base, target, apart, chars⟩ :=
    exists_relativePath_eq fromRoot toRoot
  have dotted (rest : List Char) : Specifier.isRelative ('.' :: '/' :: rest) = true := by
    simp [Specifier.isRelative, Text.startsWith, Text.stripStart?]
  rw [chars]
  cases left with
  | cons text left =>
    -- The way begins with a step back, and the resource is not below the directory.
    obtain ⟨tail, way, ends⟩ := exists_joinWith_cons_eq ['.', '.']
      (List.replicate left.length ['.', '.'] ++ entered.map String.toList)
    have begun : wayOf (text :: left) entered = ['.', '.'] ++ tail := way
    have outside : ¬ EntersDots directory resource := by
      rintro ⟨name, rest, below, -⟩
      rw [target, base, List.append_assoc] at below
      exact apart text rfl (by rw [List.append_cancel_left below]; rfl)
    rw [begun, iff_true_right outside]
    rcases ends with rfl | ⟨more, rfl⟩ <;> rfl
  | nil =>
    rw [List.append_nil] at base
    subst base
    cases entered with
    | nil =>
      have stays : ¬ EntersDots directory resource := by
        rintro ⟨name, rest, below, -⟩
        rw [target] at below
        simp at below
      exact iff_of_true (dotted _) stays
    | cons name entered =>
      have listed : name ∈ names resource := by simp [target]
      have named := Path.isName_of_mem_names listed
      obtain ⟨tail, way, ends⟩ := exists_joinWith_cons_eq name.toList (entered.map String.toList)
      have begun : wayOf [] (name :: entered) = name.toList ++ tail := way
      have enters : EntersDots directory resource ↔
          Text.startsWith ['.', '.'] name.toList = true := by
        simp only [EntersDots, target, List.append_cancel_left_eq, List.cons.injEq]
        constructor
        · rintro ⟨_, _, ⟨rfl, -⟩, dots⟩
          exact dots
        · exact fun dots => ⟨name, entered, ⟨rfl, rfl⟩, dots⟩
      rw [begun, startsWith_dots_append named tail, enters]
      split
      next dots => simp [isRelative_of_dots named dots, dots]
      next dots => simp [dotted, dots]

/-- **The way from a directory leads to the resource**, and it is a relative specifier just when the
first name to enter below the directory does not begin with two dots. Otherwise it reads as the name
of a package. -/
theorem relativePath_leads (fromRoot : Path.isAbsolute directory = true)
    (toRoot : Path.isAbsolute resource = true) :
    Path.clean (Path.join directory (relativePath directory resource)) = Path.clean resource ∧
      (Specifier.isRelative (relativePath directory resource).toList = true ↔
        ¬ EntersDots directory resource) ∧
      Specifier.classify (relativePath directory resource) =
        if Specifier.isRelative (relativePath directory resource).toList then .relative
        else .bare := by
  obtain ⟨rest, begun⟩ := exists_relativePath_eq_dot fromRoot toRoot
  exact ⟨clean_join_relativePath fromRoot toRoot, isRelative_relativePath_iff fromRoot toRoot,
    Specifier.classify_of_dot begun⟩

/-- A library beside the directory. Neither path is clean. -/
theorem relativePath_leads_library :
    relativePath "/app/./web/" "/app/../lib/a.css" = "../../lib/a.css" ∧
      Path.clean (Path.join "/app/./web/" "../../lib/a.css") = Path.clean "/app/../lib/a.css" ∧
      ¬ EntersDots "/app/./web/" "/app/../lib/a.css" := by
  have written : relativePath "/app/./web/" "/app/../lib/a.css" = "../../lib/a.css" := by
    decide +kernel
  obtain ⟨leads, reads, -⟩ :=
    @relativePath_leads "/app/./web/" "/app/../lib/a.css" (by decide +kernel) (by decide +kernel)
  rw [written] at leads reads
  exact ⟨written, leads, reads.mp (by decide +kernel)⟩

/-- **A name that begins with two dots is taken for a step back.** The request for a style below the
directory reads as the name of a package. -/
theorem relativePath_of_dots :
    Path.isAbsolute "/app" = true ∧ Path.isAbsolute "/app/..a.css" = true ∧
      relativePath "/app" "/app/..a.css" = "..a.css" ∧
      Specifier.isRelative "..a.css".toList = false ∧ Specifier.classify "..a.css" = .bare := by
  decide +kernel

end Request

end StyleGraph
