import StyleGraph.Proofs.Static.Reading

/-!
# The order of evaluation

`Static.evaluationOrder` is a search through the links of the modules that were read, in which a
module comes after those that it links to. The search has a bound on the length of a chain, and the
bound is never met: with every step down one more of the modules is marked. `Searches` is the trace
of a search that has no bound.

- **What is in order** (`nodup_evaluationOrder`, `getLast?_evaluationOrder`): the modules that links
  lead to, each once, and the entry last.
- **How it is ordered** (`behind_evaluationOrder`): a module stands behind those that it links to,
  but for those that lead back to it.
- **What the outcome depends on** (`evaluateFile_of_agree`): what a compilation reports as loaded,
  and the module itself, are all that was read for it.
-/

set_option autoImplicit false

namespace StyleGraph.Static

variable {sources : Sources} {entry : String}

/-- With every module the modules that it links to were read. -/
def Sources.IsClosed (sources : Sources) : Prop :=
  ∀ path source, sources.get? path = some source → ∀ target ∈ source.targets,
    target ∈ sources.paths

/-- **What was marked between two states of the search was put in order between them**, once, and
what it links to is marked. -/
structure Orders (sources : Sources) (before after : List String × List String) : Prop where
  grown : before.1 ⊆ after.1
  ordered : ∃ added, after.2 = before.2 ++ added ∧ added.Nodup ∧
    ∀ path, path ∈ added ↔ path ∈ after.1 ∧ path ∉ before.1
  closed : ∀ path ∈ after.1, path ∉ before.1 → ∀ source, sources.get? path = some source →
    ∀ target ∈ source.targets, target ∈ after.1

/-- Where nothing was searched nothing is missing. -/
theorem orders_refl (state : List String × List String) : Orders sources state state where
  grown := List.Subset.refl _
  ordered := ⟨[], by simp, by simp, by simp⟩
  closed := fun _ mem new => absurd mem new

/-- What two searches put in order, one after the other. What the second one adds was not marked by
the first, so nothing is put in order twice. -/
theorem Orders.trans {first second third : List String × List String}
    (orders : Orders sources first second) (again : Orders sources second third) :
    Orders sources first third where
  grown := List.Subset.trans orders.grown again.grown
  ordered := by
    obtain ⟨added, ordered, nodup, members⟩ := orders.ordered
    obtain ⟨more, orderedAgain, nodupAgain, membersAgain⟩ := again.ordered
    refine ⟨added ++ more, ?_, ?_, fun path => ?_⟩
    · rw [orderedAgain, ordered, List.append_assoc]
    · refine nodup.append nodupAgain fun path early late => ?_
      exact ((membersAgain path).mp late).2 ((members path).mp early).1
    · rw [List.mem_append, members, membersAgain, ← Marks.new_trans orders.grown again.grown]
  closed := by
    intro path mem new source found target listed
    rcases (Marks.new_trans orders.grown again.grown path).mp ⟨mem, new⟩ with early | late
    · exact again.grown (orders.closed path early.1 early.2 source found target listed)
    · exact again.closed path late.1 late.2 source found target listed

/-- A module comes behind all that was put in order since it got its mark. All that it links to was
put in order in between, which makes the order one of dependencies. -/
theorem Orders.around {path : String} {seen order : List String}
    {middle : List String × List String} (new : path ∉ seen)
    (orders : Orders sources (path :: seen, order) middle)
    (linked : ∀ source, sources.get? path = some source → ∀ target ∈ source.targets,
      target ∈ middle.1) :
    Orders sources (seen, order) (middle.1, middle.2 ++ [path]) := by
  have marked : path ∈ middle.1 := orders.grown List.mem_cons_self
  have parts : ∀ other, (other ∈ middle.1 ∧ other ∉ seen) ↔
      (other ∈ middle.1 ∧ other ∉ path :: seen) ∨ other = path := by
    intro other
    rw [List.mem_cons, not_or]
    constructor
    · rintro ⟨mem, unmarked⟩
      by_cases same : other = path
      · exact .inr same
      · exact .inl ⟨mem, same, unmarked⟩
    · rintro (⟨mem, _, unmarked⟩ | rfl)
      · exact ⟨mem, unmarked⟩
      · exact ⟨marked, new⟩
  refine ⟨List.Subset.trans (List.subset_cons_self _ _) orders.grown, ?_, ?_⟩
  · obtain ⟨added, ordered, nodup, members⟩ := orders.ordered
    refine ⟨added ++ [path], ?_, ?_, fun other => ?_⟩
    · simp only [ordered, List.append_assoc]
    · refine nodup.append (List.nodup_singleton path) fun other early late => ?_
      rw [List.mem_singleton.mp late] at early
      exact ((members path).mp early).2 List.mem_cons_self
    · rw [List.mem_append, members, List.mem_singleton]
      exact (parts other).symm
  · intro other mem unmarked source found target listed
    rcases (parts other).mp ⟨mem, unmarked⟩ with between | rfl
    · exact orders.closed other between.1 between.2 source found target listed
    · exact linked source found target listed

/-! ## The search, module by module -/

/-- The modules that a module links to, if it was read. -/
def Sources.targets (sources : Sources) (path : String) : List String :=
  ((sources.get? path).map Source.targets).getD []

/-- The targets of a path are those of its source, if it has one. -/
theorem Sources.mem_targets {path target : String} :
    target ∈ sources.targets path ↔
      ∃ source, sources.get? path = some source ∧ target ∈ source.targets := by
  unfold targets
  cases sources.get? path <;> simp

/-- Where the sources are closed, all targets have sources. -/
theorem Sources.IsClosed.mem_paths (closed : sources.IsClosed) {path target : String}
    (mem : target ∈ sources.targets path) : target ∈ sources.paths := by
  obtain ⟨source, found, listed⟩ := mem_targets.mp mem
  exact closed path source found target listed

/-- The trace of a search through modules that are still to be looked at, from one state to
another. -/
inductive Searches (sources : Sources) :
    List String → List String × List String → List String × List String → Prop
  | done {state : List String × List String} : Searches sources [] state state
  | known {path : String} {rest : List String} {before after : List String × List String}
      (marked : path ∈ before.1) (others : Searches sources rest before after) :
      Searches sources (path :: rest) before after
  /-- A module is marked, then what it links to is searched, and then it is put in order. -/
  | visit {path : String} {rest seen order : List String}
      {middle after : List String × List String} (new : path ∉ seen)
      (links : Searches sources (sources.targets path) (path :: seen, order) middle)
      (others : Searches sources rest (middle.1, middle.2 ++ [path]) after) :
      Searches sources (path :: rest) (seen, order) after

/-- Two searches one after the other are a search for both lists. -/
theorem Searches.append {first rest : List String} {before middle after : List String × List String}
    (searches : Searches sources first before middle)
    (others : Searches sources rest middle after) : Searches sources (first ++ rest) before after := by
  induction searches with
  | done => exact others
  | known marked _ ih => exact .known marked (ih others)
  | visit new links _ _ ih => exact .visit new links (ih others)

/-- A search marks what it looks at, and puts in order what it marks. By induction on the search: a
module is put in order behind all that was searched from it. -/
theorem Searches.orders {pending : List String} {before after : List String × List String}
    (searches : Searches sources pending before after) :
    Orders sources before after ∧ ∀ path ∈ pending, path ∈ after.1 := by
  induction searches with
  | done => exact ⟨orders_refl _, fun _ mem => absurd mem List.not_mem_nil⟩
  | known marked _ ih =>
    refine ⟨ih.1, fun other mem => ?_⟩
    rcases List.mem_cons.mp mem with rfl | mem
    · exact ih.1.grown marked
    · exact ih.2 other mem
  | @visit path _ _ _ middle _ new _ _ inner ih =>
    have here : Orders sources _ (middle.1, middle.2 ++ [path]) :=
      inner.1.around new fun source found target mem =>
        inner.2 target (Sources.mem_targets.mpr ⟨source, found, mem⟩)
    refine ⟨here.trans ih.1, fun other mem => ?_⟩
    rcases List.mem_cons.mp mem with rfl | mem
    · exact ih.1.grown (inner.1.grown List.mem_cons_self)
    · exact ih.2 other mem

/-! ## Depth -/

/-- How many of the modules that were read are not marked. -/
def unseen (sources : Sources) (seen : List String) : Nat := Marks.remaining sources.paths seen

/-- Linked modules are searched one after the other, if the search from each of them goes deep
enough. -/
theorem searches_foldl {depth : Nat}
    (searches : ∀ (path : String) (state : List String × List String), path ∈ sources.paths →
      unseen sources state.1 < depth →
      Searches sources [path] state (orderFrom sources depth path state))
    (links : List (String × String)) (state : List String × List String)
    (listed : ∀ link ∈ links, link.2 ∈ sources.paths) (deep : unseen sources state.1 < depth) :
    Searches sources (links.map Prod.snd) state
      (links.foldl (fun state link => orderFrom sources depth link.2 state) state) := by
  induction links generalizing state with
  | nil => exact .done
  | cons link links ih =>
    have first := searches link.2 state (listed link List.mem_cons_self) deep
    exact first.append <| ih (orderFrom sources depth link.2 state)
      (fun other mem => listed other (List.mem_cons_of_mem _ mem))
      (Nat.lt_of_le_of_lt (Marks.remaining_le first.orders.1.grown) deep)

/-- **A search that goes deep enough leaves no gap.** The depth goes down at each step, and so does
the number of modules without a mark, so the depth is never used up. -/
theorem searches_orderFrom (closed : sources.IsClosed) (depth : Nat) (path : String)
    (state : List String × List String) (listed : path ∈ sources.paths)
    (deep : unseen sources state.1 < depth) :
    Searches sources [path] state (orderFrom sources depth path state) := by
  -- the depth never runs out before the modules without a mark do
  induction depth generalizing path state with
  | zero => exact absurd deep (Nat.not_lt_zero _)
  | succ depth ih =>
    obtain ⟨seen, order⟩ := state
    rw [orderFrom]
    by_cases new : path ∈ seen
    · rw [if_pos (List.contains_iff_mem.mpr new)]
      exact .known new .done
    rw [if_neg (by simpa using new)]
    have targets : (((sources.get? path).map Source.links).getD []).map Prod.snd =
        sources.targets path := by
      unfold Sources.targets
      cases sources.get? path <;> rfl
    have links : ∀ link ∈ ((sources.get? path).map Source.links).getD [],
        link.2 ∈ sources.paths := fun link mem =>
      closed.mem_paths (targets ▸ List.mem_map_of_mem mem)
    have nearer : unseen sources (path :: seen) < depth :=
      Nat.lt_of_lt_of_le (Marks.remaining_lt listed new (List.Subset.refl _))
        (Nat.le_of_lt_succ deep)
    have inner := searches_foldl ih _ (path :: seen, order) links nearer
    rw [targets] at inner
    exact .visit new inner .done

/-- The order of evaluation is what a search from the entry gives, to which nothing is bound. -/
theorem searches_evaluationOrder (closed : sources.IsClosed) (listed : entry ∈ sources.paths) :
    ∃ seen, Searches sources [entry] ([], []) (seen, evaluationOrder sources entry) := by
  have deep : unseen sources [] < sources.length + 1 := by
    have bound := Marks.remaining_le_length sources.paths []
    rw [Sources.paths, List.length_map] at bound
    exact Nat.lt_succ_of_le bound
  exact ⟨_, searches_orderFrom closed _ entry ([], []) listed deep⟩

/-! ## What is put in order -/

/-- Nothing is marked that no chain of links leads to. By induction on the search, as each visit
goes on with links of the module it visits. -/
theorem Searches.linked {start : String} {pending : List String}
    {before after : List String × List String} (searches : Searches sources pending before after)
    (begun : ∀ path ∈ pending, Linked sources start path) :
    ∀ path ∈ after.1, path ∈ before.1 ∨ Linked sources start path := by
  induction searches with
  | done => exact fun _ mem => .inl mem
  | known _ _ ih => exact ih fun other mem => begun other (List.mem_cons_of_mem _ mem)
  | @visit path _ _ _ _ _ _ _ _ inner ih =>
    have own := begun path List.mem_cons_self
    have within := inner fun target mem => by
      obtain ⟨source, found, listed⟩ := Sources.mem_targets.mp mem
      exact own.step found listed
    intro other mem
    rcases ih (fun other mem => begun other (List.mem_cons_of_mem _ mem)) other mem with mem | linked
    · rcases within other mem with mem | linked
      · rcases List.mem_cons.mp mem with rfl | mem
        · exact .inr own
        · exact .inl mem
      · exact .inr linked
    · exact .inr linked

/-- The order of evaluation holds the modules that links lead to, each once. The search from the
entry marks what links lead to, as marks are closed under links. -/
theorem nodup_evaluationOrder (closed : sources.IsClosed) (listed : entry ∈ sources.paths) :
    (evaluationOrder sources entry).Nodup ∧
      ∀ path, path ∈ evaluationOrder sources entry ↔ Linked sources entry path := by
  obtain ⟨seen, searches⟩ := searches_evaluationOrder closed listed
  obtain ⟨orders, marked⟩ := searches.orders
  obtain ⟨added, ordered, nodup, members⟩ := orders.ordered
  have same : evaluationOrder sources entry = added := ordered
  refine ⟨same ▸ nodup, fun path => ?_⟩
  rw [same, members]
  constructor
  · rintro ⟨mem, _⟩
    refine (searches.linked (fun other begun => ?_) path mem).resolve_left List.not_mem_nil
    exact List.mem_singleton.mp begun ▸ .entry
  · intro linked
    refine ⟨?_, List.not_mem_nil⟩
    induction linked with
    | entry => exact marked entry List.mem_cons_self
    | step _ found mem ih => exact orders.closed _ ih List.not_mem_nil _ found _ mem

/-- The entry comes last. -/
theorem getLast?_evaluationOrder (sources : Sources) (entry : String) :
    (evaluationOrder sources entry).getLast? = some entry := by
  simp only [evaluationOrder, orderFrom, List.contains_nil, Bool.false_eq_true, if_false,
    List.getLast?_append, List.getLast?_singleton, Option.some_or]

/-- In an order every module stands behind those that it links to, but for those that lead back to
it. -/
def Behind (sources : Sources) (order : List String) : Prop :=
  ∀ before path after, order = before ++ path :: after →
    ∀ target ∈ sources.targets path, target ∈ before ∨ Linked sources target path

/-- A path is put behind its targets, except for those that lead back to it. -/
theorem Behind.snoc {order : List String} {path : String} (behind : Behind sources order)
    (linked : ∀ target ∈ sources.targets path, target ∈ order ∨ Linked sources target path) :
    Behind sources (order ++ [path]) := by
  intro before other after cut
  rcases List.eq_nil_or_concat after with rfl | ⟨between, last, rfl⟩
  · obtain ⟨rfl, same⟩ := List.append_inj' cut rfl
    cases same
    exact linked
  · rw [List.concat_eq_append, ← List.cons_append, ← List.append_assoc] at cut
    exact behind before other between (List.append_inj' cut rfl).1

/-- What a search leaves marked but not in order was so before. -/
theorem Orders.unfinished {before after : List String × List String}
    (orders : Orders sources before after) {path : String} (marked : path ∈ after.1)
    (waits : path ∉ after.2) : path ∈ before.1 ∧ path ∉ before.2 := by
  obtain ⟨added, ordered, _, members⟩ := orders.ordered
  rw [ordered, List.mem_append, not_or] at waits
  refine ⟨?_, waits.1⟩
  by_contra new
  exact waits.2 ((members path).mpr ⟨marked, new⟩)

/-- **A search keeps modules behind those that they link to.** What is marked and not yet in order
leads to all that is still to be looked at: it waits for it. -/
theorem Searches.behind {pending : List String} {before after : List String × List String}
    (searches : Searches sources pending before after)
    (waiting : ∀ path ∈ before.1, path ∉ before.2 →
      ∀ other ∈ pending, Linked sources path other)
    (behind : Behind sources before.2) : Behind sources after.2 := by
  induction searches with
  | done => exact behind
  | known _ _ ih =>
    exact ih (fun path mem waits other listed =>
      waiting path mem waits other (List.mem_cons_of_mem _ listed)) behind
  | @visit path rest seen order middle _ new links _ inner ih =>
    have leads : ∀ other ∈ path :: seen, other ∉ order → Linked sources other path := by
      intro other mem waits
      rcases List.mem_cons.mp mem with rfl | mem
      · exact .entry
      · exact waiting other mem waits path List.mem_cons_self
    obtain ⟨orders, marked⟩ := links.orders
    have within : Behind sources middle.2 := inner (fun other mem waits target listed => by
      obtain ⟨source, found, listed⟩ := Sources.mem_targets.mp listed
      exact (leads other mem waits).step found listed) behind
    refine ih (fun other mem waits next listed => ?_) (within.snoc fun target listed => ?_)
    · rw [List.mem_append, not_or, List.mem_singleton] at waits
      obtain ⟨early, unordered⟩ := orders.unfinished mem waits.1
      exact waiting other ((List.mem_cons.mp early).resolve_left waits.2) unordered next
        (List.mem_cons_of_mem _ listed)
    · by_cases ready : target ∈ middle.2
      · exact .inl ready
      · obtain ⟨early, unordered⟩ := orders.unfinished (marked target listed) ready
        exact .inr (leads target early unordered)

/-- **In the order of evaluation** every module stands behind what it imports, except along cycles.
-/
theorem behind_evaluationOrder (closed : sources.IsClosed) (listed : entry ∈ sources.paths) :
    Behind sources (evaluationOrder sources entry) := by
  obtain ⟨seen, searches⟩ := searches_evaluationOrder closed listed
  refine searches.behind (fun _ mem => absurd mem List.not_mem_nil) fun before path after cut => ?_
  cases before <;> cases cut

/-! ## What an evaluation depends on -/

/-- From an entry the modules that are read are closed under links, and the entry is one. -/
theorem Reads.isClosed {tree : FileTree} (reads : Reads tree [entry] [] (.ok sources)) :
    sources.IsClosed ∧ entry ∈ sources.paths := by
  obtain ⟨pendingRead, linkedRead⟩ := reads.closed
  refine ⟨fun path source found target listed => ?_, pendingRead entry List.mem_cons_self⟩
  exact (linkedRead _ (Sources.mem_of_get? found)).resolve_left List.not_mem_nil target listed

/-- From an entry all that is read is put in order. -/
theorem Reads.mem_evaluationOrder {tree : FileTree}
    (reads : Reads tree [entry] [] (.ok sources)) {path : String} (mem : path ∈ sources.paths) :
    path ∈ evaluationOrder sources entry := by
  obtain ⟨closed, listed⟩ := reads.isClosed
  refine ((nodup_evaluationOrder closed listed).2 path).mpr ?_
  refine (reads.linked (fun other begun => ?_) path mem).resolve_left List.not_mem_nil
  exact List.mem_singleton.mp begun ▸ .entry

/-- **An evaluation depends on the texts of its module and of what it reports as loaded**, and on
the shape of the tree. -/
theorem evaluateFile_of_agree {tree other : FileTree} (same : tree.SameShape other)
    {project : String} {compiled : Compiled}
    (evaluated : evaluateFile tree entry project = .ok compiled)
    (agree : tree.AgreeOn other (entry :: compiled.loaded)) :
    evaluateFile other entry project = .ok compiled := by
  have reads := reads_readAll tree entry
  unfold evaluateFile at evaluated ⊢
  cases read : Sources.readAll tree [entry] [] with
  | error fault => rw [read] at evaluated; cases evaluated
  | ok sources =>
    rw [read] at reads evaluated
    have loaded : compiled.loaded = (evaluationOrder sources entry).filter (· != entry) := by
      cases results : evaluateAll project sources (evaluationOrder sources entry) [] with
      | error fault => simp only [bind, Except.bind, results] at evaluated; cases evaluated
      | ok values => simp only [bind, Except.bind, results] at evaluated; cases evaluated; rfl
    have again := reads.of_agree same fun path mem => by
      refine agree path ?_
      rw [List.mem_cons, loaded, List.mem_filter]
      by_cases own : path = entry
      · exact .inl own
      · exact .inr ⟨reads.mem_evaluationOrder mem, by simpa using own⟩
    rw [again.readAll_eq]
    exact evaluated

end StyleGraph.Static
