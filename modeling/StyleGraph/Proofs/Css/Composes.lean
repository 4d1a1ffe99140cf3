import StyleGraph.Css.Sheet.Exports
import StyleGraph.Css.Sheet.Minify
import StyleGraph.Proofs.Css.Selector.Same

/-!
# Where classes are composed

A sheet composes well if no rule composes classes but those at its top whose selectors are single
classes. Below the top, selectors make no difference (`Rule.composesWell_mapSelectors`).

Making a sheet short joins rules and drops others, and no step of that composes classes where they
were not composed before: neighbours are joined if their selectors or their declarations are the
same. So what composes well still does in its short form (`Sheet.composesWell_minify`).
-/

set_option autoImplicit false

namespace StyleGraph.Css

/-! ## Declarations -/

/-- Declarations none of which composes classes. -/
def ComposeNone (declarations : List Declaration) : Prop :=
  ∀ declaration ∈ declarations, declaration.isComposes = false

/-- Two lists of declarations compose nothing if neither does. -/
theorem composeNone_append {first second : List Declaration} :
    ComposeNone (first ++ second) ↔ ComposeNone first ∧ ComposeNone second := by
  simp only [ComposeNone, List.mem_append, or_imp, forall_and]

/-- Fewer declarations compose no more. -/
theorem ComposeNone.subset {declarations some : List Declaration}
    (none : ComposeNone declarations) (subset : some ⊆ declarations) : ComposeNone some :=
  fun declaration mem => none declaration (subset mem)

namespace PropertyGroup

variable {group : PropertyGroup} {declarations : List Declaration}

/-- Spelling a shorthand out composes nothing new. -/
theorem composeNone_spell {declaration : Declaration} (none : declaration.isComposes = false) :
    ComposeNone (group.spell declaration) := by
  unfold spell
  split
  · simp [ComposeNone, Declaration.isComposes]
  · simpa [ComposeNone] using none

/-- Settling a group keeps or drops declarations, or spells them out. -/
theorem composeNone_settle (none : ComposeNone declarations) :
    ComposeNone (group.settle declarations) := by
  have members : ComposeNone (group.members.filterMap fun member =>
      declarations.find? fun declaration => declaration.property == member) := by
    intro declaration mem
    obtain ⟨member, -, found⟩ := List.mem_filterMap.mp mem
    exact none declaration (List.mem_of_find?_eq_some found)
  unfold settle
  dsimp only
  split
  · simp [ComposeNone, Declaration.isComposes]
  · exact members

end PropertyGroup

namespace Block

/-- Putting a declaration in the place of an earlier one. -/
theorem composeNone_put {declaration : Declaration} {declarations : List Declaration}
    (none : declaration.isComposes = false) (others : ComposeNone declarations) :
    ComposeNone (put declaration declarations) := by
  unfold put
  split
  · intro other mem
    obtain ⟨before, listed, rfl⟩ := List.mem_map.mp mem
    split
    · exact none
    · exact others before listed
  · exact composeNone_append.mpr ⟨others, by simpa [ComposeNone] using none⟩

/-- One more declaration does not compose classes either. A declaration is put where it is, or
splits into others of its group first; neither makes a `composes` of it. -/
theorem composeNone_add {draft : Draft} {declaration : Declaration}
    (none : declaration.isComposes = false)
    (draftNone : ComposeNone draft.settled ∧ ComposeNone draft.pending) :
    ComposeNone (draft.add declaration).settled ∧ ComposeNone (draft.add declaration).pending := by
  obtain ⟨settled, pending⟩ := draftNone
  have single : ComposeNone [declaration] := by simpa [ComposeNone] using none
  unfold Draft.add
  dsimp only
  split
  · exact ⟨composeNone_put none settled, pending⟩
  · split
    next group _ _ _ =>
      have written := composeNone_append.mpr ⟨settled, group.composeNone_settle pending⟩
      exact ⟨composeNone_append.mpr ⟨written, single⟩, pending.subset List.filter_sublist.subset⟩
    next group _ _ =>
      refine ⟨settled, ?_⟩
      refine List.foldlRecOn (group.spell declaration) _ pending fun all held part mem => ?_
      exact composeNone_put (PropertyGroup.composeNone_spell none part mem) held
    next => exact ⟨composeNone_append.mpr ⟨settled, single⟩, pending⟩

/-- Shortening values composes nothing new. -/
theorem composeNone_shorten {declarations : List Declaration} (none : ComposeNone declarations) :
    ComposeNone (shorten declarations) := by
  have start : ComposeNone ({} : Draft).settled ∧ ComposeNone ({} : Draft).pending := by
    simp [ComposeNone]
  have draft := List.foldlRecOn declarations Draft.add
    (motive := fun draft => ComposeNone draft.settled ∧ ComposeNone draft.pending) start
    fun draft held declaration mem => composeNone_add (none declaration mem) held
  refine composeNone_append.mpr ⟨draft.1, fun declaration mem => ?_⟩
  obtain ⟨group, -, settled⟩ := List.mem_flatMap.mp mem
  exact group.composeNone_settle draft.2 declaration settled

/-- A block composes nothing if neither its normal nor its important declarations do. -/
theorem hasComposes_eq_false_iff {block : Block} :
    block.hasComposes = false ↔ ComposeNone block.normal ∧ ComposeNone block.important := by
  simp only [hasComposes, all, List.any_eq_false, Bool.not_eq_true, ← composeNone_append]
  rfl

/-- A short block composes classes only if the block does. -/
theorem hasComposes_of_minify {block : Block} (short : block.minify.hasComposes = true) :
    block.hasComposes = true := by
  cases composes : block.hasComposes with
  | true => rfl
  | false =>
    obtain ⟨normal, important⟩ := hasComposes_eq_false_iff.mp composes
    have none : block.minify.hasComposes = false := hasComposes_eq_false_iff.mpr
      ⟨composeNone_shorten normal, composeNone_shorten important⟩
    rw [none] at short
    cases short

/-- A block that is joined of two composes if one of them does. -/
theorem hasComposes_append {first second : Block} :
    (first.append second).hasComposes = (first.hasComposes || second.hasComposes) := by
  simp only [hasComposes, all, append, List.any_append]
  ac_rfl

/-- What composes can be left out. -/
theorem hasComposes_filter (block : Block) :
    (block.filter fun declaration => !declaration.isComposes).hasComposes = false := by
  simp [hasComposes_eq_false_iff, ComposeNone, filter]

end Block

/-! ## Rules -/

namespace Rule

/-- All selectors of a list are single classes. -/
def Singles (selectors : List Selector) : Prop :=
  ∀ selector ∈ selectors, selector.singleClass?.isSome = true

variable {depth : Nat} {rules : List Rule}

/-- Rules compose well if each of them does, wherever it stands. -/
theorem composesWellAll_iff :
    composesWellAll depth rules = true ↔ ∀ rule ∈ rules, rule.composesWell depth = true := by
  induction rules with
  | nil => simp [composesWellAll]
  | cons rule rest ih => simp [composesWellAll, ih]

/-- The same for rules before and behind. -/
theorem composesWellAll_append {before after : List Rule} :
    composesWellAll depth (before ++ after) =
      (composesWellAll depth before && composesWellAll depth after) := by
  induction before with
  | nil => rfl
  | cons rule rest ih => rw [List.cons_append, composesWellAll, composesWellAll, ih, Bool.and_assoc]

/-- A style rule composes well at the top only, with selectors that are single classes. -/
theorem composesWell_style {selectors : List Selector} {block : Block} :
    (Rule.style selectors block rules).composesWell depth = true ↔
      (block.hasComposes = true → depth = 0 ∧ Singles selectors) ∧
        composesWellAll (depth + 1) rules = true := by
  cases composes : block.hasComposes <;> simp [composesWell, composes, Singles]

/-- A group is no style rule, but counts as a level. -/
theorem composesWell_group {header : Header} :
    (Rule.group header rules).composesWell depth = composesWellAll (depth + 1) rules := by
  rw [composesWell]

/-- Declarations that stand by themselves belong to the rule around them, so that rule has to be at
the top. -/
theorem composesWell_declarations {block : Block} :
    (Rule.declarations block).composesWell depth = true ↔
      (block.hasComposes = true → depth ≤ 1) := by
  cases composes : block.hasComposes <;> simp [composesWell, composes]

/-- The rules inside of a rule that composes well do so one level further down. -/
theorem composesWell_inner {rule : Rule} (well : rule.composesWell depth = true) :
    composesWellAll (depth + 1) rule.inner = true := by
  cases rule with
  | style selectors block rules => exact (composesWell_style.mp well).2
  | group header rules => exact composesWell_group ▸ well
  | declarations block => rfl
  | leaf other => rfl

/-! ### Below the top -/

variable (f : List Selector → List Selector)

mutual

/-- **Below the top of a sheet, selectors make no difference.** -/
theorem composesWell_mapSelectors (depth : Nat) : ∀ rule : Rule,
    (rule.mapSelectors f).composesWell (depth + 1) = rule.composesWell (depth + 1)
  | .style _ _ rules => by
    simp [mapSelectors, composesWell, composesWellAll_mapSelectorsAll _ rules]
  | .group _ rules => by
    simp only [mapSelectors, composesWell, composesWellAll_mapSelectorsAll _ rules]
  | .declarations _ => rfl
  | .leaf _ => rfl

/-- Below the top it makes no difference what the selectors are, since nothing may be composed
there. -/
theorem composesWellAll_mapSelectorsAll (depth : Nat) : ∀ rules : List Rule,
    composesWellAll (depth + 1) (mapSelectorsAll f rules) = composesWellAll (depth + 1) rules
  | [] => rfl
  | rule :: rest => by
    simp only [mapSelectorsAll, composesWellAll, composesWell_mapSelectors depth rule,
      composesWellAll_mapSelectorsAll depth rest]

end

/-! ### Joining -/

/-- What two rules become that are joined composes well if they do. Rules are joined for their
selectors or for their declarations; in the first case the block grows, in the second the list of
selectors, and either list had to be one of single classes. -/
theorem composesWell_join? {before last joined : Rule} (joins : join? before last = some joined)
    (beforeWell : before.composesWell depth = true) (lastWell : last.composesWell depth = true) :
    joined.composesWell depth = true := by
  unfold join? at joins
  split at joins
  next selectors block others other =>
    have first := (composesWell_style.mp beforeWell).1
    have second := (composesWell_style.mp lastWell).1
    split at joins
    · cases joins
    · split at joins
      next same =>
        -- The declarations of both rules under the selectors that both have.
        cases joins
        refine composesWell_style.mpr ⟨fun composes => ?_, rfl⟩
        have either := Block.hasComposes_of_minify composes
        rw [Block.hasComposes_append, Bool.or_eq_true] at either
        rcases either with some | some
        · exact first some
        · rw [Selector.eq_of_sameAll same]
          exact second some
      next =>
        split at joins
        next equal =>
          -- The declarations that both rules have under the selectors of both.
          cases joins
          refine composesWell_style.mpr ⟨fun composes => ?_, rfl⟩
          obtain ⟨top, singles⟩ := first composes
          obtain ⟨-, otherSingles⟩ := second (equal ▸ composes)
          refine ⟨top, fun selector mem => ?_⟩
          rcases List.mem_append.mp mem with mem | mem
          · exact singles selector mem
          · exact otherSingles selector mem
        next => cases joins
  next => cases joins

/-- The rules of a draft compose well. -/
def Draft.Well (depth : Nat) (draft : Draft) : Prop :=
  ∀ rule, some rule ∈ draft.rules → rule.composesWell depth = true

namespace Draft.Well

variable {draft : Draft} {rule : Rule}

/-- A rule is added behind the others. -/
theorem push (well : draft.Well depth) (ruleWell : rule.composesWell depth = true) :
    (draft.push rule).Well depth := by
  intro other mem
  rcases List.mem_append.mp mem with mem | mem
  · exact well other mem
  · cases List.mem_singleton.mp mem
    exact ruleWell

/-- The last rule is taken away. -/
theorem pop (well : draft.Well depth) : draft.pop.Well depth :=
  fun other mem => well other (List.dropLast_subset _ mem)

/-- The last rule is replaced. -/
theorem setLast (well : draft.Well depth) (ruleWell : rule.composesWell depth = true) :
    (draft.setLast rule).Well depth :=
  well.pop.push ruleWell

/-- A rule is replaced at any place, or taken away. -/
theorem set (well : draft.Well depth) (place : Nat) {rule : Option Rule}
    (ruleWell : ∀ other ∈ rule, other.composesWell depth = true) :
    (draft.set place rule).Well depth := by
  intro other mem
  rcases List.mem_or_eq_of_mem_set mem with mem | same
  · exact well other mem
  · exact ruleWell other same.symm

/-- A rule that is found at a place is one that composes well. -/
theorem of_getElem? (well : draft.Well depth) {place : Nat}
    (found : draft.rules[place]?.join = some rule) : rule.composesWell depth = true :=
  well rule (List.mem_of_getElem? (Option.join_eq_some_iff.mp found))

/-- So is the last one. -/
theorem of_last? (well : draft.Well depth) (last : draft.last? = some rule) :
    rule.composesWell depth = true :=
  well rule (List.mem_of_getLast? (Option.join_eq_some_iff.mp last))

/-- Joining a rule with the ones before it keeps this, since what is joined composes where one of
the two did. -/
theorem joinBack (well : draft.Well depth) (fuel : Nat) : (Rule.joinBack fuel draft).Well depth := by
  induction fuel generalizing draft with
  | zero => exact well
  | succ fuel ih =>
    unfold Rule.joinBack
    split
    next last before rest reversed =>
      have lastMem : some last ∈ draft.rules := by
        rw [← List.mem_reverse, reversed]
        simp
      have beforeMem : some before ∈ draft.rules := by
        rw [← List.mem_reverse, reversed]
        simp
      split
      next joined joins =>
        exact ih (well.pop.setLast
          (composesWell_join? joins (well before beforeMem) (well last lastMem)))
      next => exact well
    next => exact well

/-- A style rule is added, and joined with an earlier one if they belong together. The cases are
those of the adding itself; an empty rule is dropped, which changes nothing. -/
theorem addStyle (well : draft.Well depth) {selectors : List Selector} {block : Block}
    {rules : List Rule} (ruleWell : (Rule.style selectors block rules).composesWell depth = true) :
    (Rule.addStyle draft selectors block rules).Well depth := by
  unfold Rule.addStyle
  dsimp only
  split
  next joined joins =>
    obtain ⟨last, isLast, joins⟩ := Option.bind_eq_some_iff.mp joins
    exact (well.setLast (composesWell_join? joins (well.of_last? isLast) ruleWell)).joinBack _
  next =>
    have pushed := well.push ruleWell
    split
    · exact well
    · split
      · exact pushed
      · split
        · exact pushed.set _ (by simp)
        · exact pushed

/-- Any rule is added, with its inner rules made shorter first. The inner rules are a parameter, as
the rules of a group are shortened before the group is added and those of a style rule are not. -/
theorem add (well : draft.Well depth) (ruleWell : rule.composesWell depth = true)
    {shorten : List Rule → List Rule}
    (keeps : ∀ rules, composesWellAll (depth + 1) rules = true →
      composesWellAll (depth + 1) (shorten rules) = true) :
    (Rule.add shorten draft rule).Well depth := by
  have joined {before rules : List Rule} (beforeWell : composesWellAll (depth + 1) before = true)
      (rulesWell : composesWellAll (depth + 1) rules = true) :
      composesWellAll (depth + 1) (shorten (before ++ rules)) = true := by
    refine keeps _ (composesWellAll_iff.mpr fun rule mem => ?_)
    rcases List.mem_append.mp mem with mem | mem
    · exact composesWellAll_iff.mp beforeWell rule mem
    · exact composesWellAll_iff.mp rulesWell rule mem
  unfold Rule.add
  split
  next selectors block rules =>
    obtain ⟨composes, inner⟩ := composesWell_style.mp ruleWell
    exact well.addStyle (composesWell_style.mpr
      ⟨fun short => composes (Block.hasComposes_of_minify short), keeps _ inner⟩)
  next block =>
    dsimp only
    split
    · exact well
    · exact well.push (composesWell_declarations.mpr fun short =>
        composesWell_declarations.mp ruleWell (Block.hasComposes_of_minify short))
  next name rules =>
    have rulesWell := composesWell_group ▸ ruleWell
    split
    next place _ =>
      refine well.set place fun other same => ?_
      cases same
      refine composesWell_group ▸ joined ?_ rulesWell
      cases found : draft.rules[place]?.join with
      | none => rfl
      | some before => exact composesWell_inner (well.of_getElem? found)
    next => exact well.push (composesWell_group ▸ keeps _ rulesWell)
  next header rules _ =>
    have rulesWell := composesWell_group ▸ ruleWell
    dsimp only
    split
    next together found =>
      have togetherWell : composesWellAll (depth + 1) (shorten together) = true := by
        split at found
        next other before last =>
          split at found
          · cases found
            exact joined (composesWell_inner (well.of_last? last)) rulesWell
          · cases found
        next => cases found
      split
      · exact well.pop
      · exact well.setLast (composesWell_group ▸ togetherWell)
    next =>
      split
      · exact well
      · exact well.push (composesWell_group ▸ keeps _ rulesWell)
  next names =>
    refine List.foldlRecOn names _ well fun draft held name _ => ?_
    split
    · exact held
    · exact held.push rfl
  next keyword name quoted frames =>
    dsimp only
    split
    next place _ => exact well.set place (by rintro _ ⟨⟩; rfl)
    next => exact well.push rfl
  next other _ _ => exact well.push rfl

end Draft.Well

/-! ### Short sheets -/

/-- Putting the names of layers together brings in no rules but lists of names. -/
theorem composesWellAll_gatherLayers (declared : List LayerName) (isOpen : Bool)
    (well : composesWellAll depth rules = true) :
    composesWellAll depth (gatherLayers declared isOpen rules).2 = true := by
  fun_induction gatherLayers declared isOpen rules <;>
    simp_all [composesWellAll, composesWell]

/-- Short rules compose well if the rules do. -/
theorem composesWellAll_minifyAll (fuel : Nat) (well : composesWellAll depth rules = true) :
    composesWellAll depth (minifyAll fuel rules) = true := by
  induction fuel generalizing depth rules with
  | zero => exact well
  | succ fuel ih =>
    have drafted : (rules.foldl (add (minifyAll fuel)) {}).Well depth :=
      List.foldlRecOn rules (add (minifyAll fuel)) (motive := Draft.Well depth) (by simp [Draft.Well])
        fun draft held rule mem => held.add (composesWellAll_iff.mp well rule mem) fun _ => ih
    refine composesWellAll_gatherLayers [] false (composesWellAll_iff.mpr fun rule mem => ?_)
    obtain ⟨held, listed, rfl⟩ := List.mem_filterMap.mp mem
    exact drafted rule listed

end Rule

/-- **The short form of a sheet that composes well composes well.** -/
theorem Sheet.composesWell_minify {sheet : Sheet} (well : sheet.composesWell = true) :
    sheet.minify.composesWell = true :=
  Rule.composesWellAll_minifyAll _ well

end StyleGraph.Css
