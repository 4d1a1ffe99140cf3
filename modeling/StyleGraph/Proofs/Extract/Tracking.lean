import StyleGraph.Extract.Basic
import StyleGraph.Proofs.Compile.Tracking
import StyleGraph.Proofs.Walk.Reach

/-!
# What an extraction depends on

The files of an extracted sheet are all that has to be watched. A walk that succeeds is the same
walk on every tree of the same shape that agrees on the files that it recorded
(`Walk.Visit.of_agree`): a file is recorded before it is read, and what a compilation reports is
recorded when the file is compiled. Nothing is said of walks that fail, which record only a part
of what they read.

Resolving is taken to depend on the shape of the tree, and peers are taken to report what they read.

## What is proved

`Extract.run_of_agree`: an extraction that succeeds has the same result on every tree of the same
shape that agrees on the extracted files.
-/

set_option autoImplicit false

namespace StyleGraph

open Resolve (Resolution)

namespace Walk

variable {project other : Project} {entry : String}

/-! ## The walk -/

/-- Two projects differ in what their files hold only, and compilations report what they read. -/
structure Tracks (project other : Project) : Prop where
  same : project.tree.SameShape other.tree
  resolve : other.resolve = project.resolve
  accepts : other.accepts = project.accepts
  compile : ∀ {dialect : Dialect} {path : String} {compiled : Compile.Compiled},
    (project.compile dialect path).result = .ok compiled →
    project.tree.AgreeOn other.tree (path :: compiled.loaded) →
      other.compile dialect path = project.compile dialect path

/-- Imports are resolved alike where the resolver is the same. -/
theorem resolveAll_congr (resolve : other.resolve = project.resolve) (importer : String)
    (specifiers : List String) (state : State) :
    resolveAll other importer specifiers state = resolveAll project importer specifiers state := by
  induction specifiers generalizing state with
  | nil => rfl
  | cons specifier specifiers ih => simp only [resolveAll, resolve, ih]

/-- The imports of a file depend on its text and on what specifiers stand for. -/
theorem importsOf_congr (resolve : other.resolve = project.resolve) {path : String}
    (agree : project.tree.readText path = other.tree.readText path) (state : State) :
    importsOf other path state = importsOf project path state := by
  simp only [importsOf, ← agree, resolveAll_congr resolve]

/-- Adding CSS depends on its file and on the files that it records. The file and what its compiler
reports are recorded, which is the point of `agree`: it is about the recorded files only. -/
theorem contribute_of_agree (tracks : Tracks project other) {dialect : Dialect} {path : String}
    {state : State} (kind : Kind.ofPath path = .style dialect)
    (succeeds : (contribute project dialect path state).fault = none)
    (recorded : path ∈ state.files)
    (agree : project.tree.AgreeOn other.tree (contribute project dialect path state).state.files) :
    contribute other dialect path state = contribute project dialect path state := by
  have files := (contributed_contribute kind succeeds).files
  cases accepted : project.accepts path with
  | false => simp only [contribute, tracks.accepts, accepted, Bool.not_false, if_true]
  | true =>
    cases result : (project.compile dialect path).result with
    | error fault =>
      simp only [contribute, accepted, result] at succeeds
      cases succeeds
    | ok compiled =>
      have compiles := tracks.compile result fun file mem => by
        rcases List.mem_cons.mp mem with rfl | mem
        · exact agree file ((files file).mpr (.inl recorded))
        · -- The clean path of a loaded file is recorded, the loaded path itself is read.
          refine tracks.same.readText_eq_of_clean (agree _ ((files _).mpr (.inr ⟨?_, ?_⟩)))
          · exact ⟨⟨dialect, kind⟩, accepted⟩
          · exact ⟨dialect, compiled, kind, result, List.mem_map_of_mem mem⟩
      simp only [contribute, tracks.accepts, compiles]

/-- The imports of a file that a walk begins are the same where the trees agree on it. -/
private theorem links_of_agree (tracks : Tracks project other) {path : String}
    {state after : State} {result : Except Fault (List String)} {files : List String}
    (links : importsOf project path ((state.mark path).record path) = (after, result))
    (kept : after.files ⊆ files) (agree : project.tree.AgreeOn other.tree files) :
    importsOf other path ((state.mark path).record path) = (after, result) := by
  have recorded : path ∈ after.files := ((begun_importsOf links).2.2 path).mpr (.inr rfl)
  rw [importsOf_congr tracks.resolve (agree path (kept recorded)), links]

/-- Files that were recorded stay recorded. -/
private theorem Covers.files_subset {before after : State}
    (covers : Covers project entry before after) : before.files ⊆ after.files :=
  fun file mem => (covers.files file).mpr (.inl mem)

mutual

/-- **A visit that succeeds is a visit on every tree that agrees on the recorded files.** The proof
is along the visit. The recorded files only grow, so agreement on the last ones is agreement on all
earlier ones. -/
theorem Visit.of_agree (tracks : Tracks project other) {path : String} {state : State}
    {outcome : Outcome} : Visit project entry path state outcome → outcome.fault = none →
      project.tree.AgreeOn other.tree outcome.state.files →
      Visit other entry path state outcome
  | .again known => fun _ _ => .again known
  | .other new kind => fun _ _ => .other new kind
  | .installed new kind imported installed => fun _ _ => .installed new kind imported installed
  | .sheet new kind plain => fun succeeds agree => by
    have recorded : path ∈ ((state.mark path).record path).files :=
      mem_files_record.mpr (.inr rfl)
    rw [← contribute_of_agree tracks kind succeeds recorded agree]
    exact .sheet new kind plain
  | .unlinked _ _ _ => fun succeeds => nomatch succeeds
  | .script new kind own links visits => fun succeeds agree => by
    have kept := (visits.covers succeeds).1.files_subset
    exact .script new kind own (links_of_agree tracks links kept agree)
      (visits.of_agree tracks succeeds agree)
  | @Visit.module _ _ _ _ _ _ before new kind links visits => fun succeeds agree => by
    obtain ⟨beforeSucceeds, contributes⟩ := succeeds_of_andThen succeeds
    rw [andThen_of_succeeds beforeSucceeds] at agree
    have begunKept := (visits.covers beforeSucceeds).1.files_subset
    have kept : before.state.files ⊆ (contribute project .vanilla path before.state).state.files :=
      fun file mem => ((contributed_contribute kind contributes).files file).mpr (.inl mem)
    have recorded := begunKept (((begun_importsOf links).2.2 path).mpr (.inr rfl))
    have same := contribute_of_agree tracks kind contributes recorded agree
    have again : before.andThen (contribute project .vanilla path) =
        before.andThen (contribute other .vanilla path) := by
      rw [andThen_of_succeeds beforeSucceeds, andThen_of_succeeds beforeSucceeds, same]
    rw [again]
    exact .module new kind
      (links_of_agree tracks links (List.Subset.trans begunKept kept) agree)
      (visits.of_agree tracks beforeSucceeds fun file mem => agree file (kept mem))

/-- Visits that succeed one after the other do so on every tree that agrees on the recorded
files. -/
theorem VisitAll.of_agree (tracks : Tracks project other) {paths : List String} {state : State}
    {outcome : Outcome} : VisitAll project entry paths state outcome → outcome.fault = none →
      project.tree.AgreeOn other.tree outcome.state.files →
      VisitAll other entry paths state outcome
  | .nil => fun _ _ => .nil
  | .cons visit visitSucceeds visits => fun succeeds agree => by
    have kept := (visits.covers succeeds).1.files_subset
    exact .cons (visit.of_agree tracks visitSucceeds fun file mem => agree file (kept mem))
      visitSucceeds (visits.of_agree tracks succeeds agree)
  | .fail _ fails => fun succeeds => by
    rw [succeeds] at fails
    cases fails

end

/-- A walk that succeeds is the same walk on every tree that agrees on the recorded files. -/
theorem walkFrom_of_agree (tracks : Tracks project other) {state : State}
    (succeeds : (walkFrom project entry state).fault = none)
    (agree : project.tree.AgreeOn other.tree (walkFrom project entry state).state.files) :
    walkFrom other entry state = walkFrom project entry state := by
  have visit := visit_walkFrom project entry state
  exact (visit.of_agree tracks succeeds agree).walkFrom_eq

end Walk

namespace Extract

/-! ## The theorem -/

/-- What an extraction asks that is not its own: what specifiers stand for, and the peers, on every
tree. -/
structure Surroundings where
  resolve : FileTree → String → String → Resolution
  peer : FileTree → String → Option Compile.Peer

namespace Surroundings

/-- Options with what the surroundings have on a tree. -/
def options (around : Surroundings) (tree : FileTree) (options : ExtractOptions) :
    ExtractOptions :=
  { options with resolve := some (around.resolve tree), peer := some (around.peer tree) }

/-- What specifiers stand for depends on which paths there are, and what peers answer on the
compiled file and on what they report as loaded. -/
structure Tracked (around : Surroundings) : Prop where
  resolve : ∀ {tree other : FileTree}, tree.SameShape other →
    around.resolve tree = around.resolve other
  peer : ∀ {tree other : FileTree}, tree.SameShape other → ∀ name,
    Option.Rel (Compile.Peer.Tracked tree other) (around.peer tree name) (around.peer other name)

end Surroundings

variable {around : Surroundings} {tree other : FileTree}

/-- Two runs go alike as long as the files that were recorded are the same, whatever their options
are made of. -/
theorem tracks_project (tracked : around.Tracked) (same : tree.SameShape other)
    (commands : Compile.Commands) (options : ExtractOptions) :
    Walk.Tracks (project tree commands (around.options tree options))
      (project other commands (around.options other options)) where
  same := same
  resolve := (tracked.resolve same).symm
  accepts := rfl
  compile := by
    intro dialect path compiled compiles agree
    let workspace (tree : FileTree) : Compile.Workspace :=
      { tree, cwd := options.cwd, peer := around.peer tree }
    exact @Compile.Workspace.compile_of_agree (workspace tree) (workspace other) same rfl
      (tracked.peer same) dialect path compiled compiles agree

/-- An entry stands for the same file where specifiers do. -/
theorem resolveEntry_congr {project other : Project} (resolve : other.resolve = project.resolve)
    (cwd entry : String) : resolveEntry other cwd entry = resolveEntry project cwd entry := by
  simp only [resolveEntry, resolve]

/-- Finishing the CSS records no files. -/
theorem files_of_finished {options : ExtractOptions} {state : Walk.State} {extracted : Extracted}
    (finishes : finished options state = .ok extracted) : extracted.files = state.files := by
  unfold finished at finishes
  simp only at finishes
  split at finishes
  · split at finishes
    · cases finishes; rfl
    · cases finishes
  · cases finishes; rfl

/-- **The files of an extracted sheet are all that it depends on.** It takes the walk, then the way
the sheet is finished, which reads no file at all. -/
theorem run_of_agree (tracked : around.Tracked) (commands : Compile.Commands)
    (options : ExtractOptions) (entry : String) (same : tree.SameShape other)
    {extracted : Extracted}
    (succeeds : (run tree commands (around.options tree options) entry).result = .ok extracted)
    (agree : tree.AgreeOn other extracted.files) :
    (run other commands (around.options other options) entry).result = .ok extracted := by
  have tracks := tracks_project tracked same commands options
  have cwd : (around.options other options).cwd = (around.options tree options).cwd := rfl
  have finish : finished (around.options other options) =
      finished (around.options tree options) := rfl
  unfold run at succeeds ⊢
  simp only [resolveEntry_congr tracks.resolve, cwd, finish] at succeeds ⊢
  -- neither a failed resolution nor a failed walk gives a sheet
  split at succeeds
  · cases succeeds
  next events path resolved =>
    simp only at succeeds ⊢
    split at succeeds
    · cases succeeds
    next walks =>
      rw [files_of_finished succeeds] at agree
      rw [Walk.walkFrom_of_agree tracks walks agree, walks]
      exact succeeds

/-! ### A peer that reads more than the compiled file -/

/-- A peer puts a second file behind every sheet and reports it. -/
def appending : Surroundings where
  resolve tree specifier _ :=
    let path := Path.clean (Path.join "/" specifier)
    if tree.isFile path then .found path else .notFound
  peer tree _ :=
    let compile : Compile.ModernSass := fun request =>
      match tree.readText request.path, tree.readText "/theme.scss" with
      | .ok sheet, .ok theme => .ok { css := sheet ++ theme, loaded := ["/theme.scss"] }
      | _, _ => .error (.said "unread")
    some { main := { modern := some compile } }

/-- The peer reads the files that it reports. It reads one file beside the sheet itself, which
agreement covers as the file is reported. -/
theorem tracked_appending : appending.Tracked where
  resolve same := by
    funext specifier importer
    simp only [appending, same.isFile]
  peer {tree other} same name := by
    refine .some ⟨.none, .some fun request compiled compiles agree => ?_, .none, .none⟩
    cases sheet : tree.readText request.path with
    | error cause => simp [sheet] at compiles
    | ok text =>
      cases theme : tree.readText "/theme.scss" with
      | error cause => simp [sheet, theme] at compiles
      | ok more =>
        simp only [sheet, theme] at compiles
        cases compiles
        have own := agree request.path List.mem_cons_self
        have loaded := agree "/theme.scss" (List.mem_cons_of_mem _ List.mem_cons_self)
        simp only [← own, ← loaded, sheet, theme]

/-- A script imports a sheet of Sass and a sheet that is not accepted. The text of one more sheet,
which nothing imports, is left open. -/
def themed (aside : String) : FileTree where
  files :=
    [(["a.ts"], .text "import './b.scss';import './c.css';"), (["b.scss"], .text "b"),
      (["c.css"], .text "c"), (["theme.scss"], .text "t"), (["aside.css"], .text aside)]

/-- The options of the example. -/
def withoutC : ExtractOptions := { cwd := "/", accepts := fun path => path ≠ "/c.css" }

/-- What the run gives, evaluated once. -/
private theorem run_themed :
    (run (themed "first") (fun _ => none) (appending.options (themed "first") withoutC)
      "./a.ts").result =
        .ok { css := "bt", files := ["/a.ts", "/b.scss", "/theme.scss", "/c.css"]
              modules := none } := by
  have resolved : resolveEntry
      (project (themed "first") (fun _ => none) (appending.options (themed "first") withoutC))
      "/" "./a.ts" = ([.resolved "./a.ts" "/"], .ok "/a.ts") := by decide +kernel
  have walked : Walk.walkFrom
      (project (themed "first") (fun _ => none) (appending.options (themed "first") withoutC))
      "/a.ts" { events := [.resolved "./a.ts" "/"] } =
        { state :=
            { visited := ["/c.css", "/b.scss", "/a.ts"]
              files := ["/a.ts", "/b.scss", "/theme.scss", "/c.css"]
              compiled := [("/b.scss", "bt")]
              events :=
                [.resolved "./a.ts" "/", .resolved "./b.scss" "/a.ts",
                  .resolved "./c.css" "/a.ts",
                  .called (.modern
                    { path := "/b.scss", loadPaths := ["/", "/", "/node_modules"]
                      isIndented := false })] } } := by
    refine Walk.run_eq_of_runWithin 5 ?_
    decide +kernel
  have cwd : (appending.options (themed "first") withoutC).cwd = "/" := rfl
  unfold run
  simp only [cwd, resolved, walked]
  decide +kernel

/-- A peer reads a file that no import leads to, and changes to other files make no difference. -/
theorem run_of_agree_themed :
    (themed "first").SameShape (themed "second") ∧
      (run (themed "first") (fun _ => none) (appending.options (themed "first") withoutC)
        "./a.ts").result =
          .ok { css := "bt", files := ["/a.ts", "/b.scss", "/theme.scss", "/c.css"]
                modules := none } ∧
      (themed "first").AgreeOn (themed "second")
        ["/a.ts", "/b.scss", "/theme.scss", "/c.css"] ∧
      (run (themed "second") (fun _ => none) (appending.options (themed "second") withoutC)
        "./a.ts").result =
          .ok { css := "bt", files := ["/a.ts", "/b.scss", "/theme.scss", "/c.css"]
                modules := none } := by
  have same : (themed "first").SameShape (themed "second") :=
    FileTree.sameShape_of_names_eq rfl rfl
  have agree : (themed "first").AgreeOn (themed "second")
      ["/a.ts", "/b.scss", "/theme.scss", "/c.css"] := by
    unfold FileTree.AgreeOn
    decide +kernel
  exact ⟨same, run_themed, agree,
    run_of_agree tracked_appending _ withoutC "./a.ts" same run_themed agree⟩

end Extract

end StyleGraph
