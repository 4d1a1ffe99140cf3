import StyleGraph.Proofs.FileTree
import StyleGraph.Proofs.Marks
import StyleGraph.Walk.Basic

/-!
# The walk as a recursion

`State.run` keeps what is still to be done in a list of frames. The recursion says the same without
one: a file is visited (`Visit`), and so are the files that it imports, one after the other
(`VisitAll`). Both are relations, so that a walk that never ended would have no outcome, and
neither carries a bound.

## What is proved

`walkFrom_eq_depthFirst`: from every entry of every project the loop ends after finitely many turns
(`Ends`), and its outcome is the one and only outcome of the recursion. The outcome is compared as
a whole: the files that were visited and recorded, the compiled CSS, the events and the fault, each
in its order.

- **The simulation** (`Visit.ends`): whatever lies below a frame, the loop comes to it with the
  outcome of the visit. A visit that fails ends the loop.
- **Termination** (`exists_visit`): a file whose imports are followed can be read, so it is the
  entry or one of the tree's own files, because imports are clean paths. Every such step marks one
  of these finitely many paths, and no step takes a mark away. The list of frames has no part in
  the measure.
-/

set_option autoImplicit false

namespace StyleGraph.Walk

variable {project : Project} {entry : String}

/-! ## The recursion -/

/-- A walk follows the imports of CSS-in-TS modules and of scripts, unless a script is imported from
an installed package. -/
def Follows (entry path : String) : Prop :=
  Kind.ofPath path = .style .vanilla ∨
    Kind.ofPath path = .script ∧ (path = entry ∨ isInstalled path = false)

/-- Goes on from an outcome, unless something went wrong. -/
def Outcome.andThen (outcome : Outcome) (next : State → Outcome) : Outcome :=
  if outcome.fault.isSome then outcome else next outcome.state

mutual

/-- The visit of a file takes a state to an outcome. -/
inductive Visit (project : Project) (entry : String) : String → State → Outcome → Prop
  /-- A file that was visited before. -/
  | again {path : String} {state : State} (known : path ∈ state.visited) :
      Visit project entry path state { state }
  /-- A file that a walk does not care for. -/
  | other {path : String} {state : State} (new : path ∉ state.visited)
      (kind : Kind.ofPath path = .other) :
      Visit project entry path state { state := state.mark path }
  /-- A script of an installed package. -/
  | installed {path : String} {state : State} (new : path ∉ state.visited)
      (kind : Kind.ofPath path = .script) (imported : path ≠ entry)
      (installed : isInstalled path = true) :
      Visit project entry path state { state := state.mark path }
  /-- A style file that does not import anything. -/
  | sheet {path : String} {state : State} {dialect : Dialect} (new : path ∉ state.visited)
      (kind : Kind.ofPath path = .style dialect) (plain : dialect ≠ .vanilla) :
      Visit project entry path state
        (contribute project dialect path ((state.mark path).record path))
  /-- A file whose imports cannot be found. -/
  | unlinked {path : String} {state after : State} {fault : Fault} (new : path ∉ state.visited)
      (follows : Follows entry path)
      (links : importsOf project path ((state.mark path).record path) = (after, .error fault)) :
      Visit project entry path state { state := after, fault := some fault }
  /-- A script, after all that it imports. -/
  | script {path : String} {state after : State} {imports : List String} {outcome : Outcome}
      (new : path ∉ state.visited) (kind : Kind.ofPath path = .script)
      (own : path = entry ∨ isInstalled path = false)
      (links : importsOf project path ((state.mark path).record path) = (after, .ok imports))
      (visits : VisitAll project entry imports after outcome) :
      Visit project entry path state outcome
  /-- A CSS-in-TS module, which adds its CSS after all that it imports. -/
  | module {path : String} {state after : State} {imports : List String} {outcome : Outcome}
      (new : path ∉ state.visited) (kind : Kind.ofPath path = .style .vanilla)
      (links : importsOf project path ((state.mark path).record path) = (after, .ok imports))
      (visits : VisitAll project entry imports after outcome) :
      Visit project entry path state (outcome.andThen (contribute project .vanilla path))

/-- The visits of files, one after the other until one fails, take a state to an outcome. -/
inductive VisitAll (project : Project) (entry : String) : List String → State → Outcome → Prop
  | nil {state : State} : VisitAll project entry [] state { state }
  | cons {path : String} {paths : List String} {state : State} {first outcome : Outcome}
      (visit : Visit project entry path state first) (succeeds : first.fault = none)
      (visits : VisitAll project entry paths first.state outcome) :
      VisitAll project entry (path :: paths) state outcome
  | fail {path : String} {paths : List String} {state : State} {outcome : Outcome}
      (visit : Visit project entry path state outcome) (fails : outcome.fault.isSome = true) :
      VisitAll project entry (path :: paths) state outcome

end

/-! ## The loop, turn by turn -/

/-- The loop ends: turn by turn it does what the frames ask for, until none is left or something
goes wrong. -/
inductive Ends (project : Project) (entry : String) : List Frame → State → Outcome → Prop
  | done {state : State} : Ends project entry [] state { state }
  | fail {frame : Frame} {rest : List Frame} {state : State}
      (fails : (turn project entry frame state).2.fault.isSome = true) :
      Ends project entry (frame :: rest) state (turn project entry frame state).2
  | next {frame : Frame} {rest : List Frame} {state : State} {outcome : Outcome}
      (succeeds : (turn project entry frame state).2.fault = none)
      (ends : Ends project entry ((turn project entry frame state).1 ++ rest)
        (turn project entry frame state).2.state outcome) :
      Ends project entry (frame :: rest) state outcome

/-- A loop that ends has the outcome of its turns. -/
theorem Ends.run_eq {frames : List Frame} {state : State} {outcome : Outcome}
    (ends : Ends project entry frames state outcome) :
    state.run project entry frames = outcome := by
  induction ends with
  | done => rw [State.run]
  | fail fails => rw [State.run]; simp only [fails, if_true]
  | next succeeds _ ih =>
    rw [State.run]
    simp only [succeeds, Option.isSome_none, Bool.false_eq_true, if_false]
    exact ih

/-- The outcome of the loop, if it comes with at most a given number of turns. -/
def runWithin (project : Project) (entry : String) : Nat → List Frame → State → Option Outcome
  | _, [], state => some { state }
  | 0, _ :: _, _ => none
  | turns + 1, frame :: rest, state =>
    let (added, outcome) := turn project entry frame state
    if outcome.fault.isSome then some outcome
    else runWithin project entry turns (added ++ rest) outcome.state

/-- A bound on the turns does not change the outcome. -/
theorem run_eq_of_runWithin (turns : Nat) {frames : List Frame} {state : State}
    {outcome : Outcome} (within : runWithin project entry turns frames state = some outcome) :
    state.run project entry frames = outcome := by
  induction turns generalizing frames state with
  | zero =>
    cases frames with
    | nil => cases within; rw [State.run]
    | cons frame rest => cases within
  | succ turns ih =>
    cases frames with
    | nil => cases within; rw [State.run]
    | cons frame rest =>
      rw [State.run]
      simp only [runWithin] at within
      split at within
      next fails => cases within; simp only [fails, if_true]
      next succeeds =>
        simp only [succeeds, Bool.false_eq_true, if_false]
        exact ih within

/-- The loop goes on below a frame from an outcome, or has ended with it. -/
def Resumes (project : Project) (entry : String) (rest : List Frame) (outcome final : Outcome) :
    Prop :=
  (outcome.fault.isSome = true ∧ final = outcome) ∨
    (outcome.fault = none ∧ Ends project entry rest outcome.state final)

/-- One turn, then the loop over what it added and the rest. -/
theorem ends_cons {frame : Frame} {rest added : List Frame} {state : State}
    {outcome final : Outcome} (turned : turn project entry frame state = (added, outcome))
    (resumes : Resumes project entry (added ++ rest) outcome final) :
    Ends project entry (frame :: rest) state final := by
  have here : (turn project entry frame state).2 = outcome := by rw [turned]
  rcases resumes with ⟨fails, rfl⟩ | ⟨succeeds, ends⟩
  · rw [← here] at fails ⊢
    exact .fail fails
  · refine .next (here ▸ succeeds) ?_
    rw [turned]
    exact ends

/-- A path that was visited adds nothing to the stack. -/
theorem turn_again {path : String} {state : State} (known : path ∈ state.visited) :
    turn project entry (.visit path) state = ([], { state }) := by
  simp only [turn, List.contains_iff_mem, known, if_true]

/-- A file of no known kind is marked and left alone. -/
theorem turn_other {path : String} {state : State} (new : path ∉ state.visited)
    (kind : Kind.ofPath path = .other) :
    turn project entry (.visit path) state = ([], { state := state.mark path }) := by
  simp only [turn, List.contains_iff_mem, new, if_false, isPassed, kind, if_true]

/-- A script of an installed package is marked and left alone, unless it is the entry. -/
theorem turn_installed {path : String} {state : State} (new : path ∉ state.visited)
    (kind : Kind.ofPath path = .script) (imported : path ≠ entry)
    (installed : isInstalled path = true) :
    turn project entry (.visit path) state = ([], { state := state.mark path }) := by
  simp only [turn, List.contains_iff_mem, new, if_false, isPassed, kind, installed, ne_eq, imported,
    not_false_eq_true, decide_true, Bool.and_self, if_true]

/-- A sheet contributes at once, since nothing is followed from it here. -/
theorem turn_sheet {path : String} {state : State} {dialect : Dialect}
    (new : path ∉ state.visited) (kind : Kind.ofPath path = .style dialect)
    (plain : dialect ≠ .vanilla) :
    turn project entry (.visit path) state =
      ([], contribute project dialect path ((state.mark path).record path)) := by
  have sheet : (Kind.style dialect).sheet? = some dialect := by
    cases dialect <;> first | rfl | exact absurd rfl plain
  simp only [turn, List.contains_iff_mem, new, if_false, isPassed, kind, sheet, Bool.false_eq_true]

/-- A file whose imports are followed is not passed over, and no plain sheet. -/
theorem Follows.isPassed {path : String} (follows : Follows entry path) :
    isPassed entry path = false := by
  rcases follows with kind | ⟨kind, rfl | own⟩
  · simp only [Walk.isPassed, kind]
  · simp only [Walk.isPassed, kind, ne_eq, not_true_eq_false, decide_false, Bool.false_and]
  · simp only [Walk.isPassed, kind, own, Bool.and_false]

/-- What is followed is no plain sheet. -/
theorem Follows.sheet? {path : String} (follows : Follows entry path) :
    (Kind.ofPath path).sheet? = none := by
  rcases follows with kind | ⟨kind, _⟩ <;> rw [kind] <;> rfl

/-- A file whose imports cannot be known ends the walk with the fault, and nothing is put on the
stack. -/
theorem turn_unlinked {path : String} {state after : State} {fault : Fault}
    (new : path ∉ state.visited) (follows : Follows entry path)
    (links : importsOf project path ((state.mark path).record path) = (after, .error fault)) :
    turn project entry (.visit path) state = ([], { state := after, fault := some fault }) := by
  simp only [turn, List.contains_iff_mem, new, if_false, follows.isPassed, follows.sheet?,
    Bool.false_eq_true, links]

/-- The imports of a file are put on the stack in their order, and behind them what the file itself
contributes. So a file contributes after all that it imports, as in the recursion. -/
theorem turn_linked {path : String} {state after : State} {imports : List String}
    (new : path ∉ state.visited) (follows : Follows entry path)
    (links : importsOf project path ((state.mark path).record path) = (after, .ok imports)) :
    turn project entry (.visit path) state =
      (imports.map Frame.visit ++ (Kind.ofPath path).afterImports path, { state := after }) := by
  simp only [turn, List.contains_iff_mem, new, if_false, follows.isPassed, follows.sheet?,
    Bool.false_eq_true, links]

/-! ## The simulation -/

/-- The frame of a CSS-in-TS module adds its CSS, unless its imports have failed. -/
theorem resumes_emit {path : String} {rest : List Frame} {outcome final : Outcome}
    (resumes : Resumes project entry rest
      (outcome.andThen (contribute project .vanilla path)) final) :
    Resumes project entry (.emit path :: rest) outcome final := by
  obtain ⟨after, fault⟩ := outcome
  cases fault with
  | some fault => exact .inl ⟨rfl, (resumes.resolve_right fun below => nomatch below.1).2⟩
  | none => exact .inr ⟨rfl, ends_cons rfl resumes⟩

mutual

/-- **The loop carries out a visit**, whatever lies below its frame. -/
theorem Visit.ends {path : String} {state : State} {outcome : Outcome} :
    Visit project entry path state outcome → ∀ {rest : List Frame} {final : Outcome},
      Resumes project entry rest outcome final →
        Ends project entry (.visit path :: rest) state final
  | .again known => ends_cons (turn_again known)
  | .other new kind => ends_cons (turn_other new kind)
  | .installed new kind imported installed =>
    ends_cons (turn_installed new kind imported installed)
  | .sheet new kind plain => ends_cons (turn_sheet new kind plain)
  | .unlinked new follows links => ends_cons (turn_unlinked new follows links)
  | .script new kind own links visits => by
    intro resumes
    have visited := visits.ends resumes
    refine ends_cons (turn_linked new (.inr ⟨kind, own⟩) links) (.inr ⟨rfl, ?_⟩)
    simpa only [kind, Kind.afterImports, List.append_nil] using visited
  | .module new kind links visits => by
    intro resumes
    -- the module's own frame lies below those of its imports
    have visited := visits.ends (resumes_emit resumes)
    refine ends_cons (turn_linked new (.inl kind) links) (.inr ⟨rfl, ?_⟩)
    simpa only [kind, Kind.afterImports, List.append_assoc, List.singleton_append] using visited

/-- The loop carries out visits one after the other. -/
theorem VisitAll.ends {paths : List String} {state : State} {outcome : Outcome} :
    VisitAll project entry paths state outcome → ∀ {rest : List Frame} {final : Outcome},
      Resumes project entry rest outcome final →
        Ends project entry (paths.map Frame.visit ++ rest) state final
  | .nil => fun resumes => (resumes.resolve_left fun failed => nomatch failed.1).2
  | .cons visit succeeds visits => fun resumes =>
    visit.ends (.inr ⟨succeeds, visits.ends resumes⟩)
  | .fail visit fails => fun resumes =>
    visit.ends (.inl (resumes.resolve_right fun below => by rw [below.1] at fails; cases fails))

end

/-- The loop over the frame of one file has the outcome of its visit. -/
theorem Visit.ends_singleton {path : String} {state : State} {outcome : Outcome}
    (visit : Visit project entry path state outcome) :
    Ends project entry [.visit path] state outcome := by
  refine visit.ends ?_
  obtain ⟨after, fault⟩ := outcome
  cases fault with
  | some fault => exact .inl ⟨rfl, rfl⟩
  | none => exact .inr ⟨rfl, .done⟩

/-! ## What a visit leaves -/

/-- Recording a file marks nothing as visited. -/
theorem visited_record (state : State) (path : String) :
    (state.record path).visited = state.visited := by
  unfold State.record
  split <;> rfl

/-- The same for any number of files. -/
theorem visited_foldl_record (paths : List String) (state : State) :
    (paths.foldl State.record state).visited = state.visited := by
  induction paths generalizing state with
  | nil => rfl
  | cons path paths ih => rw [List.foldl_cons, ih, visited_record]

/-- Adding CSS visits nothing. -/
theorem visited_contribute (dialect : Dialect) (path : String) (state : State) :
    (contribute project dialect path state).state.visited = state.visited := by
  have logged : ∀ call : Option Compile.PeerCall,
      (call.elim state fun call => state.log (.called call)).visited = state.visited := by
    intro call
    cases call <;> rfl
  unfold contribute
  split
  · rfl
  · simp only
    split
    · exact logged _
    · rw [State.store, visited_foldl_record, logged]

/-- Looking for imports visits nothing. -/
theorem visited_resolveAll (importer : String) (specifiers : List String) (state : State) :
    (resolveAll project importer specifiers state).1.visited = state.visited := by
  induction specifiers generalizing state with
  | nil => rfl
  | cons specifier specifiers ih =>
    rw [resolveAll]
    split
    · rfl
    · rw [ih]; rfl
    · simp only; rw [ih]; rfl

/-- Looking up imports marks nothing as visited. -/
theorem visited_importsOf (path : String) (state : State) :
    (importsOf project path state).1.visited = state.visited := by
  unfold importsOf
  split
  · rfl
  · split
    · rfl
    · exact visited_resolveAll _ _ _

/-- A file is marked before its imports are looked for. -/
theorem marked_importsOf {path : String} {state after : State}
    {result : Except Fault (List String)}
    (links : importsOf project path ((state.mark path).record path) = (after, result)) :
    path :: state.visited ⊆ after.visited := by
  have visited := @visited_importsOf project path ((state.mark path).record path)
  rw [links, visited_record] at visited
  exact visited ▸ List.Subset.refl _

/-- What was visited before the imports were looked up stays visited. -/
theorem visited_subset_importsOf {path : String} {state after : State}
    {result : Except Fault (List String)}
    (links : importsOf project path ((state.mark path).record path) = (after, result)) :
    state.visited ⊆ after.visited :=
  List.Subset.trans (List.subset_cons_self _ _) (marked_importsOf links)

/-- Imports are clean paths. -/
theorem clean_of_mem_resolveAll {importer path : String} {specifiers imports : List String}
    {state : State} (resolved : (resolveAll project importer specifiers state).2 = .ok imports)
    (mem : path ∈ imports) : ∃ found, path = Path.clean found := by
  induction specifiers generalizing state imports with
  | nil => cases resolved; cases mem
  | cons specifier specifiers ih =>
    rw [resolveAll] at resolved
    split at resolved
    · cases resolved
    · exact ih resolved mem
    next found _ =>
      simp only at resolved
      cases others : (resolveAll project importer specifiers
          (state.log (.resolved specifier importer))).2 with
      | error fault => rw [others] at resolved; cases resolved
      | ok paths =>
        rw [others] at resolved
        cases resolved
        rcases List.mem_cons.mp mem with rfl | mem
        · exact ⟨found, rfl⟩
        · exact ih others mem

/-- A file whose imports are found can be read. -/
theorem isFile_of_importsOf {path : String} {state after : State} {imports : List String}
    (links : importsOf project path state = (after, .ok imports)) :
    project.tree.isFile path = true := by
  unfold importsOf at links
  split at links
  · cases links
  next source read => exact FileTree.isFile_of_readText read

/-- The imports that are followed are clean paths, so that a file is visited under one path only. -/
theorem clean_of_mem_importsOf {path imported : String} {state after : State}
    {imports : List String} (links : importsOf project path state = (after, .ok imports))
    (mem : imported ∈ imports) : ∃ found, imported = Path.clean found := by
  unfold importsOf at links
  split at links
  · cases links
  · split at links
    · cases links
    · exact clean_of_mem_resolveAll (congrArg Prod.snd links) mem

mutual

/-- A visit takes no mark away. -/
theorem Visit.visited_subset {path : String} {state : State} {outcome : Outcome} :
    Visit project entry path state outcome → state.visited ⊆ outcome.state.visited
  | .again _ => List.Subset.refl _
  | .other _ _ => List.subset_cons_self _ _
  | .installed _ _ _ _ => List.subset_cons_self _ _
  | .sheet _ _ _ => by
    rw [visited_contribute, visited_record]
    exact List.subset_cons_self _ _
  | .unlinked _ _ links => visited_subset_importsOf links
  | .script _ _ _ links visits =>
    List.Subset.trans (visited_subset_importsOf links) visits.visited_subset
  | .module _ _ links visits => by
    have grown := List.Subset.trans (visited_subset_importsOf links) visits.visited_subset
    unfold Outcome.andThen
    split
    · exact grown
    · rw [visited_contribute]
      exact grown

/-- Visits one after the other take no mark away. -/
theorem VisitAll.visited_subset {paths : List String} {state : State} {outcome : Outcome} :
    VisitAll project entry paths state outcome → state.visited ⊆ outcome.state.visited
  | .nil => List.Subset.refl _
  | .cons visit _ visits => List.Subset.trans visit.visited_subset visits.visited_subset
  | .fail visit _ => visit.visited_subset

end

/-! ## Termination -/

/-- How many of the entry and the tree's own files have not been visited. -/
def unvisited (project : Project) (entry : String) (state : State) : Nat :=
  Marks.remaining (entry :: project.tree.filePaths) state.visited

/-- What a walk visits: its entry, and what imports stand for. -/
def Reached (entry path : String) : Prop := path = entry ∨ ∃ found, path = Path.clean found

/-- A reached file whose imports are found is the entry or a file of the tree. -/
theorem mem_of_importsOf {path : String} {state after : State} {imports : List String}
    (reached : Reached entry path)
    (links : importsOf project path state = (after, .ok imports)) :
    path ∈ entry :: project.tree.filePaths := by
  have file := isFile_of_importsOf links
  rcases reached with rfl | ⟨found, rfl⟩
  · exact List.mem_cons_self
  · exact List.mem_cons_of_mem _ (FileTree.mem_filePaths_of_isFile_clean file)

/-- Visits one after the other have an outcome, if each visit from a state as near as theirs has. -/
theorem exists_visitAll {bound : Nat}
    (exists_ : ∀ (path : String) (state : State), Reached entry path →
      unvisited project entry state < bound → ∃ outcome, Visit project entry path state outcome)
    (paths : List String) (state : State) (reached : ∀ path ∈ paths, Reached entry path)
    (near : unvisited project entry state < bound) :
    ∃ outcome, VisitAll project entry paths state outcome := by
  induction paths generalizing state with
  | nil => exact ⟨_, .nil⟩
  | cons path paths ih =>
    obtain ⟨first, visit⟩ := exists_ path state (reached path List.mem_cons_self) near
    cases failed : first.fault with
    | some fault => exact ⟨first, .fail visit (by rw [failed]; rfl)⟩
    | none =>
      have nearer := Nat.lt_of_le_of_lt (Marks.remaining_le visit.visited_subset) near
      obtain ⟨outcome, visits⟩ :=
        ih first.state (fun other mem => reached other (List.mem_cons_of_mem _ mem)) nearer
      exact ⟨outcome, .cons visit failed visits⟩

/-- **Every visit has an outcome.** The bound is the number of files without a mark. Each visit of a
new file marks one, and the imports are visited with that bound. -/
theorem exists_visit (bound : Nat) (path : String) (state : State) (reached : Reached entry path)
    (near : unvisited project entry state < bound) :
    ∃ outcome, Visit project entry path state outcome := by
  -- each new visit leaves one file less without a mark
  induction bound generalizing path state with
  | zero => exact absurd near (Nat.not_lt_zero _)
  | succ bound ih =>
    by_cases new : path ∈ state.visited
    · exact ⟨_, .again new⟩
    have linked : Follows entry path → ∃ outcome, Visit project entry path state outcome := by
      intro follows
      rcases links : importsOf project path ((state.mark path).record path) with
        ⟨after, fault | imports⟩
      · exact ⟨_, .unlinked new follows links⟩
      have nearer : unvisited project entry after < bound :=
        Nat.lt_of_lt_of_le
          (Marks.remaining_lt (mem_of_importsOf reached links) new (marked_importsOf links))
          (Nat.le_of_lt_succ near)
      obtain ⟨outcome, visits⟩ := exists_visitAll ih imports after
        (fun other mem => .inr (clean_of_mem_importsOf links mem)) nearer
      rcases follows with kind | ⟨kind, own⟩
      · exact ⟨_, .module new kind links visits⟩
      · exact ⟨_, .script new kind own links visits⟩
    cases kind : Kind.ofPath path with
    | other => exact ⟨_, .other new kind⟩
    | script =>
      by_cases own : path = entry ∨ isInstalled path = false
      · exact linked (.inr ⟨kind, own⟩)
      · obtain ⟨imported, installed⟩ := not_or.mp own
        exact ⟨_, .installed new kind imported (Bool.eq_true_of_not_eq_false installed)⟩
    | style dialect =>
      by_cases plain : dialect = .vanilla
      · exact linked (.inl (plain ▸ kind))
      · exact ⟨_, .sheet new kind plain⟩

/-! ## The theorem -/

/-- The walk from a file has the outcome of the file's visit. -/
theorem Visit.walkFrom_eq {state : State} {outcome : Outcome}
    (visit : Visit project entry entry state outcome) : walkFrom project entry state = outcome :=
  visit.ends_singleton.run_eq

/-- The walk from a file is a visit of the file. -/
theorem visit_walkFrom (project : Project) (entry : String) (state : State) :
    Visit project entry entry state (walkFrom project entry state) := by
  obtain ⟨outcome, visit⟩ :=
    @exists_visit project entry _ entry state (.inl rfl) (Nat.lt_succ_self _)
  exact visit.walkFrom_eq ▸ visit

/-- **The walk is the depth-first recursion.** From every entry and every state the loop ends, and
its outcome is the one outcome of the entry's visit: the same marks, files, CSS and events in the
same order, and the same fault. -/
theorem walkFrom_eq_depthFirst (project : Project) (entry : String) (state : State) :
    Ends project entry [.visit entry] state (walkFrom project entry state) ∧
      ∀ outcome, Visit project entry entry state outcome ↔
        outcome = walkFrom project entry state := by
  have visit := visit_walkFrom project entry state
  refine ⟨visit.ends_singleton, fun outcome => ⟨fun other => other.walkFrom_eq.symm, ?_⟩⟩
  rintro rfl
  exact visit

end StyleGraph.Walk
