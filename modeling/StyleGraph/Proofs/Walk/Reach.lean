import StyleGraph.Proofs.Static.Reading
import StyleGraph.Proofs.Walk.Visit

/-!
# What a walk reaches

A file reaches the files that its imports stand for, if a walk follows its imports (`Reaches`). The
relation knows nothing of marks, frames or the order of visits.

## What is proved

`walkFrom_compiles_reached`: a walk that succeeds compiles the accepted style files that the entry
reaches, all of them, no others, and each once; it records every style file that is reached and
every script whose imports are followed, and beyond these only what compiling a file reported as
loaded.

The proof runs over the recursion of `Walk.Visit`. A visit that succeeds leaves no gap (`Covers`):
of the files that it marked, the imports that a walk follows are marked too. That is said of the
marks between two states and not of one state, because at the time of a visit the files above it are
marked while their imports still wait.

What the compilation of a CSS-in-TS module reports are the modules that were evaluated for it. They
need not be reached, and no peer has a part in it: `evaluated_not_reached` is such a walk.
-/

set_option autoImplicit false

namespace StyleGraph.Walk

variable {project : Project} {entry : String}

/-! ## The graph -/

/-- An import of a file stands for another file. -/
def Imports (project : Project) (path target : String) : Prop :=
  ∃ source specifiers specifier found,
    project.tree.readText path = .ok source ∧
      Script.importedSources? source path = some specifiers ∧ specifier ∈ specifiers ∧
      project.resolve specifier path = .found found ∧ target = Path.clean found

/-- The files that a walk comes to. -/
inductive Reaches (project : Project) (entry : String) : String → Prop
  | entry : Reaches project entry entry
  | step {path target : String} (reaches : Reaches project entry path)
      (follows : Follows entry path) (imports : Imports project path target) :
      Reaches project entry target

/-- A file adds its CSS: it is a style file, and it is accepted. -/
def Contributes (project : Project) (path : String) : Prop :=
  (∃ dialect, Kind.ofPath path = .style dialect) ∧ project.accepts path = true

/-- Compiling a file reports another one as loaded. -/
def Reports (project : Project) (path file : String) : Prop :=
  ∃ dialect compiled, Kind.ofPath path = .style dialect ∧
    (project.compile dialect path).result = .ok compiled ∧
    file ∈ compiled.loaded.map Path.clean

/-- A file is passed over just when it is no style file and no script whose imports are followed. -/
theorem isPassed_eq_false_iff {path : String} :
    isPassed entry path = false ↔ (∃ dialect, Kind.ofPath path = .style dialect) ∨
      Kind.ofPath path = .script ∧ (path = entry ∨ isInstalled path = false) := by
  unfold isPassed
  cases Kind.ofPath path with
  | style dialect => simp
  | other => simp
  | script =>
    by_cases same : path = entry <;> cases installed : isInstalled path <;> simp [same]

/-- The imports that are found are the files that the imports stand for. Imports that are found
nowhere or belong to others are passed over, and the path that counts is the clean one. -/
theorem mem_resolveAll_iff {importer target : String} {specifiers imports : List String}
    {state : State} (resolved : (resolveAll project importer specifiers state).2 = .ok imports) :
    target ∈ imports ↔ ∃ specifier found, specifier ∈ specifiers ∧
      project.resolve specifier importer = .found found ∧ target = Path.clean found := by
  induction specifiers generalizing state imports with
  | nil => cases resolved; simp
  | cons specifier specifiers ih =>
    rw [resolveAll] at resolved
    split at resolved
    · cases resolved
    next answer =>
      rw [ih resolved]
      simp [answer]
    next found answer =>
      simp only at resolved
      cases others : (resolveAll project importer specifiers
          (state.log (.resolved specifier importer))).2 with
      | error fault => rw [others] at resolved; cases resolved
      | ok paths =>
        rw [others] at resolved
        cases resolved
        rw [List.mem_cons, ih others]
        simp [answer]

/-- The imports of a file that are followed do not depend on the state of the walk. -/
theorem mem_importsOf_iff {path target : String} {state after : State} {imports : List String}
    (links : importsOf project path state = (after, .ok imports)) :
    target ∈ imports ↔ Imports project path target := by
  unfold importsOf at links
  split at links
  · cases links
  next source read =>
    split at links
    · cases links
    next specifiers scanned =>
      rw [mem_resolveAll_iff (congrArg Prod.snd links)]
      simp [Imports, read, scanned]

/-- Looking for imports changes nothing but the events. -/
theorem resolveAll_state (importer : String) (specifiers : List String) (state : State) :
    ∃ events, (resolveAll project importer specifiers state).1 = { state with events } := by
  induction specifiers generalizing state with
  | nil => exact ⟨state.events, rfl⟩
  | cons specifier specifiers ih =>
    obtain ⟨events, logged⟩ := ih (state.log (.resolved specifier importer))
    rw [resolveAll]
    split
    · exact ⟨_, rfl⟩
    · exact ⟨events, logged⟩
    · exact ⟨events, logged⟩

/-- Looking up imports adds events to the state at most. -/
theorem importsOf_state (path : String) (state : State) :
    ∃ events, (importsOf project path state).1 = { state with events } := by
  unfold importsOf
  split
  · exact ⟨_, rfl⟩
  · split
    · exact ⟨_, rfl⟩
    · exact resolveAll_state _ _ _

/-! ## What adding CSS does -/

/-- The CSS of a file was added, if the file adds any. -/
structure Contributed (project : Project) (path : String) (before after : State) : Prop where
  visited : after.visited = before.visited
  compiled : ∃ added, after.compiled = before.compiled ++ added ∧
    (added.map Prod.fst).Nodup ∧
    ∀ other, other ∈ added.map Prod.fst ↔ other = path ∧ Contributes project path
  files : ∀ file, file ∈ after.files ↔
    file ∈ before.files ∨ Contributes project path ∧ Reports project path file

/-- Nothing is added for a file that adds no CSS. -/
theorem contributed_of_not {path : String} (state : State)
    (silent : ¬ Contributes project path) : Contributed project path state state :=
  ⟨rfl, ⟨[], by simp, by simp, by simp [silent]⟩, by simp [silent]⟩

/-- A file is recorded once it was recorded. -/
theorem mem_files_record {state : State} {path file : String} :
    file ∈ (state.record path).files ↔ file ∈ state.files ∨ file = path := by
  unfold State.record
  split
  next known =>
    rw [List.contains_iff_mem] at known
    exact ⟨.inl, fun mem => mem.elim id fun same => same ▸ known⟩
  next => simp

/-- The same for any number of files. -/
theorem mem_files_foldl_record {state : State} {paths : List String} {file : String} :
    file ∈ (paths.foldl State.record state).files ↔ file ∈ state.files ∨ file ∈ paths := by
  induction paths generalizing state with
  | nil => simp
  | cons path paths ih => rw [List.foldl_cons, ih, mem_files_record, List.mem_cons, or_assoc]

/-- Recording files compiles nothing. -/
theorem compiled_foldl_record (paths : List String) (state : State) :
    (paths.foldl State.record state).compiled = state.compiled := by
  induction paths generalizing state with
  | nil => rfl
  | cons path paths ih =>
    rw [List.foldl_cons, ih, State.record]
    split <;> rfl

/-- **Adding CSS compiles the file if it is accepted**, and records what that reports. Whatever the
dialect, a compiler reports the files that it read, and they are recorded with the file itself. -/
theorem contributed_contribute {dialect : Dialect} {path : String} {state : State}
    (kind : Kind.ofPath path = .style dialect)
    (succeeds : (contribute project dialect path state).fault = none) :
    Contributed project path state (contribute project dialect path state).state := by
  by_cases accepted : project.accepts path = true
  · obtain ⟨compilation, called⟩ : ∃ compilation, project.compile dialect path = compilation :=
      ⟨_, rfl⟩
    obtain ⟨logged, sameVisited, sameCompiled, sameFiles, elim⟩ : ∃ logged : State,
        logged.visited = state.visited ∧ logged.compiled = state.compiled ∧
          logged.files = state.files ∧
          (compilation.call.elim state fun call => state.log (.called call)) = logged := by
      cases compilation.call with
      | none => exact ⟨state, rfl, rfl, rfl, rfl⟩
      | some call => exact ⟨state.log (.called call), rfl, rfl, rfl, rfl⟩
    have contributes : Contributes project path := ⟨⟨dialect, kind⟩, accepted⟩
    unfold contribute at succeeds ⊢
    simp only [accepted, Bool.not_true, Bool.false_eq_true, if_false, called, elim] at succeeds ⊢
    cases result : compilation.result with
    | error fault => rw [result] at succeeds; cases succeeds
    | ok compiled =>
      simp only
      refine ⟨?_, ⟨[(path, compiled.css)], ?_, by simp, by simp [contributes]⟩, fun file => ?_⟩
      · rw [State.store, visited_foldl_record, sameVisited]
      · rw [State.store, compiled_foldl_record, sameCompiled]
      · rw [State.store, mem_files_foldl_record, sameFiles]
        have reports : Reports project path file ↔ file ∈ compiled.loaded.map Path.clean := by
          constructor
          · rintro ⟨other, found, otherKind, otherResult, mem⟩
            rw [kind] at otherKind
            cases otherKind
            rw [called, result] at otherResult
            cases otherResult
            exact mem
          · intro mem
            exact ⟨dialect, compiled, kind, by rw [called, result], mem⟩
        rw [reports, and_iff_right contributes]
  · have refused : contribute project dialect path state = { state } := by
      unfold contribute
      rw [if_pos (by simpa using accepted)]
    rw [refused]
    exact contributed_of_not state fun contributes => accepted contributes.2

/-! ## Visits that leave no gap -/

/-- A file that was visited adds a file to those that are recorded. -/
def Adds (project : Project) (entry path file : String) : Prop :=
  (file = path ∧ isPassed entry path = false) ∨
    Contributes project path ∧ Reports project path file

/-- **What was marked between two states was dealt with between them.** -/
structure Covers (project : Project) (entry : String) (before after : State) : Prop where
  grown : before.visited ⊆ after.visited
  closed : ∀ path ∈ after.visited, path ∉ before.visited → Follows entry path →
    ∀ target, Imports project path target → target ∈ after.visited
  compiled : ∃ added, after.compiled = before.compiled ++ added ∧
    (added.map Prod.fst).Nodup ∧
    ∀ path, path ∈ added.map Prod.fst ↔
      (path ∈ after.visited ∧ path ∉ before.visited) ∧ Contributes project path
  files : ∀ file, file ∈ after.files ↔ file ∈ before.files ∨
    ∃ path, (path ∈ after.visited ∧ path ∉ before.visited) ∧ Adds project entry path file

/-- Where nothing was done nothing is missing. -/
theorem covers_refl (state : State) : Covers project entry state state where
  grown := List.Subset.refl _
  closed := fun _ mem new => absurd mem new
  compiled := ⟨[], by simp, by simp, by simp⟩
  files := by simp

/-- What two walks cover, one after the other. Marks, compiled files and recorded files add up, and
a file marked by the first walk is new to none of the later. -/
theorem Covers.trans {first second third : State} (covers : Covers project entry first second)
    (coversAgain : Covers project entry second third) : Covers project entry first third where
  grown := List.Subset.trans covers.grown coversAgain.grown
  closed := by
    intro path mem new follows target imports
    rcases (Marks.new_trans covers.grown coversAgain.grown path).mp ⟨mem, new⟩ with early | late
    · exact coversAgain.grown (covers.closed path early.1 early.2 follows target imports)
    · exact coversAgain.closed path late.1 late.2 follows target imports
  compiled := by
    obtain ⟨added, compiled, nodup, members⟩ := covers.compiled
    obtain ⟨more, compiledAgain, nodupAgain, membersAgain⟩ := coversAgain.compiled
    refine ⟨added ++ more, ?_, ?_, fun path => ?_⟩
    · rw [compiledAgain, compiled, List.append_assoc]
    · rw [List.map_append]
      refine nodup.append nodupAgain fun path early late => ?_
      exact ((membersAgain path).mp late).1.2 ((members path).mp early).1.1
    · rw [List.map_append, List.mem_append, members, membersAgain, ← or_and_right,
        ← Marks.new_trans covers.grown coversAgain.grown]
  files := by
    intro file
    rw [coversAgain.files, covers.files, or_assoc]
    refine or_congr_right ?_
    simp only [Marks.new_trans covers.grown coversAgain.grown, or_and_right, exists_or]

/-- A file that is passed over asks for nothing. It is marked all the same, so that it is not asked
about again. -/
theorem covers_mark {path : String} {state : State} (new : path ∉ state.visited)
    (passed : isPassed entry path = true) : Covers project entry state (state.mark path) := by
  have only : ∀ other, (other ∈ (state.mark path).visited ∧ other ∉ state.visited) ↔
      other = path := by
    intro other
    simp only [State.mark, List.mem_cons]
    exact ⟨fun h => h.1.resolve_right h.2, fun h => ⟨.inl h, h ▸ new⟩⟩
  have silent : ¬ Contributes project path := by
    rintro ⟨⟨dialect, kind⟩, _⟩
    rw [isPassed_eq_false_iff.mpr (.inl ⟨dialect, kind⟩)] at passed
    cases passed
  refine ⟨List.subset_cons_self _ _, ?_, ⟨[], by simp [State.mark], by simp, ?_⟩, ?_⟩
  · intro other mem unmarked follows
    rw [(only other).mp ⟨mem, unmarked⟩] at follows
    rw [follows.isPassed] at passed
    cases passed
  · intro other
    simp only [only, List.map_nil, List.not_mem_nil, false_iff]
    rintro ⟨rfl, contributes⟩
    exact silent contributes
  · intro file
    have nothing : ¬ Adds project entry path file := by simp [Adds, silent, passed]
    simp only [only, exists_eq_left, nothing, or_false]
    exact Iff.rfl

/-- **A file and all that comes between its mark and its own CSS**: the stretch in the middle leaves
no gap and comes to the imports of the file, if they are followed. -/
theorem Covers.around {path : String} {state begun middle after : State}
    (new : path ∉ state.visited) (cared : isPassed entry path = false)
    (marked : begun.visited = path :: state.visited)
    (compiled : begun.compiled = state.compiled)
    (recorded : ∀ file, file ∈ begun.files ↔ file ∈ state.files ∨ file = path)
    (covers : Covers project entry begun middle)
    (imported : Follows entry path → ∀ target, Imports project path target →
      target ∈ middle.visited)
    (contributed : Contributed project path middle after) :
    Covers project entry state after := by
  have markedMiddle : path ∈ middle.visited := covers.grown (marked ▸ List.mem_cons_self)
  have parts : ∀ other, (other ∈ after.visited ∧ other ∉ state.visited) ↔
      (other ∈ middle.visited ∧ other ∉ begun.visited) ∨ other = path := by
    intro other
    rw [contributed.visited, marked, List.mem_cons, not_or]
    constructor
    · rintro ⟨mem, unmarked⟩
      by_cases same : other = path
      · exact .inr same
      · exact .inl ⟨mem, same, unmarked⟩
    · rintro (⟨mem, _, unmarked⟩ | rfl)
      · exact ⟨mem, unmarked⟩
      · exact ⟨markedMiddle, new⟩
  refine ⟨?_, ?_, ?_, ?_⟩
  · rw [contributed.visited]
    exact List.Subset.trans (marked ▸ List.subset_cons_self _ _) covers.grown
  · intro other mem unmarked follows target imports
    rw [contributed.visited]
    rcases (parts other).mp ⟨mem, unmarked⟩ with between | rfl
    · exact covers.closed other between.1 between.2 follows target imports
    · exact imported follows target imports
  · obtain ⟨added, compiledMiddle, nodup, members⟩ := covers.compiled
    obtain ⟨own, compiledAfter, nodupOwn, membersOwn⟩ := contributed.compiled
    refine ⟨added ++ own, ?_, ?_, fun other => ?_⟩
    · rw [compiledAfter, compiledMiddle, compiled, List.append_assoc]
    · rw [List.map_append]
      refine nodup.append nodupOwn fun other early late => ?_
      have unmarked := ((members other).mp early).1.2
      rw [((membersOwn other).mp late).1, marked] at unmarked
      exact unmarked List.mem_cons_self
    · rw [List.map_append, List.mem_append, members, membersOwn, parts, or_and_right]
      refine or_congr_right (and_congr_right ?_)
      rintro rfl
      exact Iff.rfl
  · intro file
    rw [contributed.files, covers.files, recorded]
    simp only [parts, or_and_right, exists_or, exists_eq_left]
    have own : Adds project entry path file ↔
        file = path ∨ Contributes project path ∧ Reports project path file := by
      rw [Adds, cared, and_iff_left rfl]
    rw [own, or_assoc, or_assoc]
    exact or_congr_right or_left_comm

/-- What a walk has when it comes to the imports of a file. -/
theorem begun_importsOf {path : String} {state after : State}
    {result : Except Fault (List String)}
    (links : importsOf project path ((state.mark path).record path) = (after, result)) :
    after.visited = path :: state.visited ∧ after.compiled = state.compiled ∧
      ∀ file, file ∈ after.files ↔ file ∈ state.files ∨ file = path := by
  obtain ⟨events, same⟩ := @importsOf_state project path ((state.mark path).record path)
  rw [links] at same
  simp only at same
  rw [same]
  refine ⟨visited_record _ _, ?_, fun file => mem_files_record⟩
  exact compiled_foldl_record [path] (state.mark path)

/-- After a walk that goes through the next one starts where it ended. -/
theorem andThen_of_succeeds {outcome : Outcome} (succeeds : outcome.fault = none)
    (next : State → Outcome) : outcome.andThen next = next outcome.state := by
  unfold Outcome.andThen
  rw [succeeds]
  rfl

/-- What goes on from an outcome succeeds only if the outcome does. -/
theorem succeeds_of_andThen {outcome : Outcome} {next : State → Outcome}
    (succeeds : (outcome.andThen next).fault = none) :
    outcome.fault = none ∧ (next outcome.state).fault = none := by
  cases failed : outcome.fault with
  | some fault =>
    unfold Outcome.andThen at succeeds
    rw [failed] at succeeds
    simp [failed] at succeeds
  | none => exact ⟨rfl, andThen_of_succeeds failed next ▸ succeeds⟩

mutual

/-- **A visit that succeeds leaves no gap**, and its file is marked. It is proved with the marking
of the file, by induction on the visit: a module is marked before its imports are visited and adds
its CSS after them. -/
theorem Visit.covers {path : String} {state : State} {outcome : Outcome} :
    Visit project entry path state outcome → outcome.fault = none →
      Covers project entry state outcome.state ∧ path ∈ outcome.state.visited
  | .again known => fun _ => ⟨covers_refl state, known⟩
  | .other new kind => fun _ =>
    ⟨covers_mark new (by rw [isPassed, kind]), List.mem_cons_self⟩
  | .installed new kind imported installed => fun _ =>
    ⟨covers_mark new (by simp [isPassed, kind, imported, installed]), List.mem_cons_self⟩
  | @Visit.sheet _ _ _ _ dialect new kind plain => fun succeeds => by
    have contributed := contributed_contribute kind succeeds
    have marked : ((state.mark path).record path).visited = path :: state.visited :=
      visited_record _ _
    refine ⟨(covers_refl _).around new (isPassed_eq_false_iff.mpr (.inl ⟨dialect, kind⟩)) marked
      (compiled_foldl_record [path] (state.mark path)) (fun _ => mem_files_record) ?_
      contributed, ?_⟩
    · rintro (vanilla | ⟨script, _⟩)
      · rw [kind] at vanilla
        cases vanilla
        exact absurd rfl plain
      · rw [kind] at script
        cases script
    · rw [contributed.visited, marked]
      exact List.mem_cons_self
  | .unlinked _ _ _ => fun succeeds => nomatch succeeds
  | .script new kind own links visits => fun succeeds => by
    obtain ⟨covers, marked⟩ := visits.covers succeeds
    obtain ⟨begunVisited, begunCompiled, begunFiles⟩ := begun_importsOf links
    have silent : ¬ Contributes project path := by
      rintro ⟨⟨dialect, style⟩, _⟩
      rw [kind] at style
      cases style
    refine ⟨covers.around new (isPassed_eq_false_iff.mpr (.inr ⟨kind, own⟩)) begunVisited
      begunCompiled begunFiles
      (fun _ target imports => marked target ((mem_importsOf_iff links).mpr imports))
      (contributed_of_not _ silent), ?_⟩
    exact covers.grown (begunVisited ▸ List.mem_cons_self)
  | @Visit.module _ _ _ _ _ _ before new kind links visits => fun succeeds => by
    obtain ⟨beforeSucceeds, contributes⟩ := succeeds_of_andThen succeeds
    obtain ⟨covers, marked⟩ := visits.covers beforeSucceeds
    obtain ⟨begunVisited, begunCompiled, begunFiles⟩ := begun_importsOf links
    have contributed := contributed_contribute kind contributes
    rw [andThen_of_succeeds beforeSucceeds]
    refine ⟨covers.around new (isPassed_eq_false_iff.mpr (.inl ⟨_, kind⟩)) begunVisited
      begunCompiled begunFiles
      (fun _ target imports => marked target ((mem_importsOf_iff links).mpr imports))
      contributed, ?_⟩
    rw [contributed.visited]
    exact covers.grown (begunVisited ▸ List.mem_cons_self)

/-- Visits that succeed one after the other leave no gap. What a visit marks stays marked, so every
path of the list is marked in the end. -/
theorem VisitAll.covers {paths : List String} {state : State} {outcome : Outcome} :
    VisitAll project entry paths state outcome → outcome.fault = none →
      Covers project entry state outcome.state ∧ ∀ path ∈ paths, path ∈ outcome.state.visited
  | .nil => fun _ => ⟨covers_refl _, fun _ mem => absurd mem List.not_mem_nil⟩
  | .cons visit visitSucceeds visits => fun succeeds => by
    obtain ⟨covers, marked⟩ := visit.covers visitSucceeds
    obtain ⟨coversRest, markedRest⟩ := visits.covers succeeds
    refine ⟨covers.trans coversRest, fun other mem => ?_⟩
    rcases List.mem_cons.mp mem with rfl | mem
    · exact coversRest.grown marked
    · exact markedRest other mem
  | .fail _ fails => fun succeeds => by
    rw [succeeds] at fails
    cases fails

end

/-! ## Only what is reached -/

/-- A file that is reached is on the path so far or reached by what comes next. -/
private theorem reaches_of_mem_cons {path other : String} {before : List String}
    (reached : Reaches project entry path) (mem : other ∈ path :: before) :
    other ∈ before ∨ Reaches project entry other := by
  rcases List.mem_cons.mp mem with rfl | mem
  · exact .inr reached
  · exact .inl mem

mutual

/-- A visit marks only what its file reaches. This is the other half of `covers`: together they make
the files of a walk those that are reached. -/
theorem Visit.reaches {path : String} {state : State} {outcome : Outcome} :
    Visit project entry path state outcome → Reaches project entry path →
      ∀ other ∈ outcome.state.visited, other ∈ state.visited ∨ Reaches project entry other
  | .again _ => fun _ _ mem => .inl mem
  | .other _ _ => fun reached _ mem => reaches_of_mem_cons reached mem
  | .installed _ _ _ _ => fun reached _ mem => reaches_of_mem_cons reached mem
  | .sheet _ _ _ => fun reached other mem => by
    rw [visited_contribute, visited_record] at mem
    exact reaches_of_mem_cons reached mem
  | .unlinked _ _ links => fun reached other mem => by
    rw [(begun_importsOf links).1] at mem
    exact reaches_of_mem_cons reached mem
  | .script _ kind own links visits => fun reached other mem => by
    rcases visits.reaches (fun target listed => reached.step (.inr ⟨kind, own⟩)
      ((mem_importsOf_iff links).mp listed)) other mem with before | found
    · rw [(begun_importsOf links).1] at before
      exact reaches_of_mem_cons reached before
    · exact .inr found
  | @Visit.module _ _ _ _ _ _ before _ kind links visits => fun reached other mem => by
    have memBefore : other ∈ before.state.visited := by
      unfold Outcome.andThen at mem
      split at mem
      · exact mem
      · rwa [visited_contribute] at mem
    rcases visits.reaches (fun target listed => reached.step (.inl kind)
      ((mem_importsOf_iff links).mp listed)) other memBefore with before | found
    · rw [(begun_importsOf links).1] at before
      exact reaches_of_mem_cons reached before
    · exact .inr found

/-- Visits mark only what their files reach. -/
theorem VisitAll.reaches {paths : List String} {state : State} {outcome : Outcome} :
    VisitAll project entry paths state outcome → (∀ path ∈ paths, Reaches project entry path) →
      ∀ other ∈ outcome.state.visited, other ∈ state.visited ∨ Reaches project entry other
  | .nil => fun _ _ mem => .inl mem
  | .cons visit _ visits => fun reached other mem => by
    rcases visits.reaches (fun path listed => reached path (List.mem_cons_of_mem _ listed))
      other mem with before | found
    · exact visit.reaches (reached _ List.mem_cons_self) other before
    · exact .inr found
  | .fail visit _ => fun reached => visit.reaches (reached _ List.mem_cons_self)

end

/-- A walk from nothing that succeeds marks just what its entry reaches. -/
theorem Visit.mem_visited_iff {events : List Event} {outcome : Outcome}
    (visit : Visit project entry entry { events } outcome) (succeeds : outcome.fault = none)
    (path : String) : path ∈ outcome.state.visited ↔ Reaches project entry path := by
  obtain ⟨covers, marked⟩ := visit.covers succeeds
  constructor
  · intro mem
    exact (visit.reaches .entry path mem).resolve_left List.not_mem_nil
  · intro reached
    induction reached with
    | entry => exact marked
    | step _ follows imports ih => exact covers.closed _ ih List.not_mem_nil follows _ imports

/-- A walk from nothing marks anew what its entry reaches. -/
theorem Visit.new_iff {events : List Event} {outcome : Outcome}
    (visit : Visit project entry entry { events } outcome) (succeeds : outcome.fault = none)
    (path : String) : (path ∈ outcome.state.visited ∧ path ∉ ({ events } : State).visited) ↔
      Reaches project entry path :=
  (and_iff_left List.not_mem_nil).trans (visit.mem_visited_iff succeeds path)

/-- A walk from nothing that succeeds compiles what its entry reaches and adds CSS, each file
once. -/
theorem Visit.mem_compiled_iff {events : List Event} {outcome : Outcome}
    (visit : Visit project entry entry { events } outcome) (succeeds : outcome.fault = none) :
    (∀ path, path ∈ outcome.state.compiled.map Prod.fst ↔
      Reaches project entry path ∧ Contributes project path) ∧
      (outcome.state.compiled.map Prod.fst).Nodup := by
  obtain ⟨added, compiled, nodup, members⟩ := (visit.covers succeeds).1.compiled
  have same : outcome.state.compiled = added := compiled
  refine ⟨fun path => ?_, same ▸ nodup⟩
  rw [same, members, visit.new_iff succeeds]

/-! ## The theorem -/

/-- **A walk that succeeds compiles just the accepted style files that it reaches**, each once. It
records the style files and the followed scripts that it reaches, and beyond these only what the
compilation of a file reports. -/
theorem walkFrom_compiles_reached (project : Project) (entry : String) (events : List Event)
    (succeeds : (walkFrom project entry { events }).fault = none) :
    let final := (walkFrom project entry { events }).state
    (∀ path, path ∈ final.compiled.map Prod.fst ↔
      Reaches project entry path ∧ (∃ dialect, Kind.ofPath path = .style dialect) ∧
        project.accepts path = true) ∧
      (final.compiled.map Prod.fst).Nodup ∧
      (∀ path, Reaches project entry path →
        ((∃ dialect, Kind.ofPath path = .style dialect) ∨
          Kind.ofPath path = .script ∧ (path = entry ∨ isInstalled path = false)) →
        path ∈ final.files) ∧
      ∀ file ∈ final.files,
        (Reaches project entry file ∧
          ((∃ dialect, Kind.ofPath file = .style dialect) ∨
            Kind.ofPath file = .script ∧ (file = entry ∨ isInstalled file = false))) ∨
        ∃ path ∈ final.compiled.map Prod.fst, Reports project path file := by
  intro final
  have visit := visit_walkFrom project entry { events }
  have covers := (visit.covers succeeds).1
  have new := visit.new_iff succeeds
  obtain ⟨compiledIff, nodup⟩ := visit.mem_compiled_iff succeeds
  refine ⟨compiledIff, nodup, fun path mem cared => ?_, fun file mem => ?_⟩
  · refine (covers.files path).mpr (.inr ⟨path, (new path).mpr mem, .inl ⟨rfl, ?_⟩⟩)
    exact isPassed_eq_false_iff.mpr cared
  · rcases (covers.files file).mp mem with before | ⟨path, marked, ⟨rfl, cared⟩ | reported⟩
    · exact absurd before List.not_mem_nil
    · exact .inl ⟨(new file).mp marked, isPassed_eq_false_iff.mp cared⟩
    · exact .inr ⟨path, (compiledIff path).mpr ⟨(new path).mp marked, reported.1⟩, reported.2⟩

/-- Two scripts import each other and the same sheet, which is not accepted. One of them imports a
script of a package, whose own sheet is out of reach, and the other a sheet of Sass, for which the
peer reports one more file. -/
def crossed : Project :=
  let tree : FileTree :=
    { files :=
        [(["a.ts"], .text "import './b.css';import './c';import 'm';"),
          (["b.css"], .text ""),
          (["c.ts"], .text "import './a';import './d.sass';import './b.css';"),
          (["d.sass"], .text ""),
          (["e.sass"], .text ""),
          (["node_modules", "m.js"], .text "import './m.css';"),
          (["node_modules", "m.css"], .text "")] }
  let sass : Compile.ModernSass := fun request =>
    .ok { css := "", loaded := [request.path, "/e.sass"] }
  { tree
    resolve := fun specifier _ =>
      match specifier with
      | "./a" => .found "/a.ts"
      | "./b.css" => .found "/b.css"
      | "./c" => .found "/c.ts"
      | "./d.sass" => .found "/d.sass"
      | "./m.css" => .found "/node_modules/m.css"
      | "m" => .found "/node_modules/m.js"
      | _ => .notFound
    compile := Compile.Workspace.compile
      { tree, cwd := "/", peer := fun _ => some { main := { modern := some sass } } }
    accepts := fun path => path ≠ "/b.css" }

/-- The walk of the tree, evaluated once. -/
private theorem walkFrom_crossed : walkFrom crossed "/a.ts" {} =
    { state :=
        { visited := ["/node_modules/m.js", "/d.sass", "/c.ts", "/b.css", "/a.ts"]
          files := ["/a.ts", "/b.css", "/c.ts", "/d.sass", "/e.sass"]
          compiled := [("/d.sass", "")]
          events :=
            [.resolved "./b.css" "/a.ts", .resolved "./c" "/a.ts", .resolved "m" "/a.ts",
              .resolved "./a" "/c.ts", .resolved "./d.sass" "/c.ts", .resolved "./b.css" "/c.ts",
              .called (.modern
                { path := "/d.sass", loadPaths := ["/", "/", "/node_modules"]
                  isIndented := true })] } } := by
  refine run_eq_of_runWithin 9 ?_
  decide +kernel

/-- A tree with a cycle, a sheet that the filter refuses, and a sheet that another one loads. -/
theorem walkFrom_compiles_reached_crossed :
    (walkFrom crossed "/a.ts" {}).fault = none ∧
      (∀ path, path ∈ ["/d.sass"] ↔
        Reaches crossed "/a.ts" path ∧ (∃ dialect, Kind.ofPath path = .style dialect) ∧
          crossed.accepts path = true) ∧
      ∀ file ∈ ["/a.ts", "/b.css", "/c.ts", "/d.sass", "/e.sass"],
        (Reaches crossed "/a.ts" file ∧
          ((∃ dialect, Kind.ofPath file = .style dialect) ∨
            Kind.ofPath file = .script ∧ (file = "/a.ts" ∨ isInstalled file = false))) ∨
        ∃ path ∈ ["/d.sass"], Reports crossed path file := by
  have succeeds : (walkFrom crossed "/a.ts" {}).fault = none := by rw [walkFrom_crossed]
  obtain ⟨compiled, _, _, files⟩ := walkFrom_compiles_reached crossed "/a.ts" [] succeeds
  rw [walkFrom_crossed] at compiled files
  exact ⟨succeeds, compiled, files⟩

/-- A CSS-in-TS module imports `./b.css` where both a sheet `b.css` and a module `b.css.ts` stand
beside it. No peer is installed. -/
def shadowed : Project :=
  let tree : FileTree :=
    { files :=
        [(["a.css.ts"], .text "import './b.css';"), (["b.css"], .text ""),
          (["b.css.ts"], .text "")] }
  let resolver : Resolve.Resolver := { tree }
  { tree
    resolve := fun specifier importer => resolver.resolve specifier importer "/"
    compile := Compile.Workspace.compile { tree, cwd := "/", peer := fun _ => none }
    accepts := fun _ => true }

/-- The evaluation takes `./b.css` for the module. -/
private theorem readAll_shadowed : Static.Sources.readAll shadowed.tree ["/a.css.ts"] [] =
    .ok [("/a.css.ts", ⟨"import './b.css';", [("./b.css", "/b.css.ts")]⟩),
      ("/b.css.ts", ⟨"", []⟩)] := by
  have importing : Static.readSource shadowed.tree "/a.css.ts" =
      .ok ⟨"import './b.css';", [("./b.css", "/b.css.ts")]⟩ := by decide +kernel
  have imported : Static.readSource shadowed.tree "/b.css.ts" = .ok ⟨"", []⟩ := by decide +kernel
  exact (Static.Reads.next List.not_mem_nil importing (.next (by decide) imported .done)).readAll_eq

/-- The walk takes it for the sheet. It is evaluated step by step, like the walk of the other tree.
-/
private theorem walkFrom_shadowed : walkFrom shadowed "/a.css.ts" {} =
    { state :=
        { visited := ["/b.css", "/a.css.ts"]
          files := ["/a.css.ts", "/b.css", "/b.css.ts"]
          compiled := [("/b.css", ""), ("/a.css.ts", "")]
          events := [.resolved "./b.css" "/a.css.ts"] } } := by
  have evaluated : Static.evaluateFile shadowed.tree "/a.css.ts" "/" =
      .ok ⟨"", ["/b.css.ts"]⟩ := by
    unfold Static.evaluateFile
    rw [readAll_shadowed]
    decide +kernel
  have compiles : shadowed.compile .vanilla "/a.css.ts" =
      { result := .ok { css := "", loaded := ["/b.css.ts"] } } := by
    show Compile.Workspace.compile { tree := shadowed.tree, cwd := "/", peer := fun _ => none }
      .vanilla "/a.css.ts" = _
    simp only [Compile.Workspace.compile, evaluated]
  have first : turn shadowed "/a.css.ts" (.visit "/a.css.ts") {} =
      ([.visit "/b.css", .emit "/a.css.ts"],
        { state :=
            { visited := ["/a.css.ts"], files := ["/a.css.ts"]
              events := [.resolved "./b.css" "/a.css.ts"] } }) := by
    decide +kernel
  have second : turn shadowed "/a.css.ts" (.visit "/b.css")
      { visited := ["/a.css.ts"], files := ["/a.css.ts"]
        events := [.resolved "./b.css" "/a.css.ts"] } =
      ([], { state :=
              { visited := ["/b.css", "/a.css.ts"], files := ["/a.css.ts", "/b.css"]
                compiled := [("/b.css", "")]
                events := [.resolved "./b.css" "/a.css.ts"] } }) := by
    decide +kernel
  refine (ends_cons first (.inr ⟨rfl, ends_cons second (.inr ⟨rfl, ?_⟩)⟩)).run_eq
  refine ends_cons rfl (.inr ?_)
  simp only [contribute, compiles]
  exact ⟨rfl, .done⟩

/-- **A recorded file need not be reached**, even if no peer was called. -/
theorem evaluated_not_reached :
    (walkFrom shadowed "/a.css.ts" {}).fault = none ∧
      "/b.css.ts" ∈ (walkFrom shadowed "/a.css.ts" {}).state.files ∧
      ¬ Reaches shadowed "/a.css.ts" "/b.css.ts" ∧
      ∀ call, .called call ∉ (walkFrom shadowed "/a.css.ts" {}).state.events := by
  have visit := visit_walkFrom shadowed "/a.css.ts" {}
  rw [walkFrom_shadowed] at visit ⊢
  refine ⟨rfl, by decide, ?_, by simp⟩
  rw [← visit.mem_visited_iff rfl]
  decide

end StyleGraph.Walk
