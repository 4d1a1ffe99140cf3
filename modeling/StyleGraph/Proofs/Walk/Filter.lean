import StyleGraph.Proofs.Walk.Reach

/-!
# What a filter does to a walk

A filter says which style files add their CSS. It has no say in where a walk goes: beside a walk
that nothing is kept from, the walk with the filter visits the same files in the same order, and of
the CSS that was added it has that of the accepted files, in the same order (`Filtered`). Every turn
of the two walks keeps this, whatever they meet in between, so it need not be known where a file
that is left out stands in the graph.

## What is proved

`walkFrom_filtered`: if the walk without the filter succeeds, so does the walk with it; the same
files are visited in the same order, those that are not passed over are recorded, and what is
missing is the CSS of the files that are not accepted. A file that is passed over, as an image is,
is visited and not recorded, with a filter and without (`visited_not_recorded`).
-/

set_option autoImplicit false

namespace StyleGraph.Walk

variable {project : Project} {entry : String}

/-- A project whose style files all add their CSS. -/
def unfiltered (project : Project) : Project := { project with accepts := fun _ => true }

/-- A state of the walk with the filter beside one of the walk without it. -/
structure Filtered (project : Project) (full part : State) : Prop where
  visited : part.visited = full.visited
  compiled : part.compiled = full.compiled.filter fun entry => project.accepts entry.1

/-! ## Steps of the two walks -/

namespace Filtered

variable {full part : State}

/-- Visiting a file on both sides keeps the two walks in step. -/
theorem mark (filtered : Filtered project full part) (path : String) :
    Filtered project (full.mark path) (part.mark path) where
  visited := congrArg (path :: ·) filtered.visited
  compiled := filtered.compiled

/-- What is recorded does not matter. -/
theorem record (filtered : Filtered project full part) (path : String) :
    Filtered project (full.record path) (part.record path) where
  visited := by rw [visited_record, visited_record, filtered.visited]
  compiled := by
    have kept : ∀ state : State, (state.record path).compiled = state.compiled :=
      compiled_foldl_record [path]
    rw [kept, kept, filtered.compiled]

/-- A file is new to both walks or to none. -/
theorem not_mem (filtered : Filtered project full part) {path : String}
    (new : path ∉ full.visited) : path ∉ part.visited :=
  filtered.visited ▸ new

end Filtered

/-- What imports stand for depends neither on the filter nor on what was found before. The filter is
asked about files, and only once they are visited. -/
theorem resolveAll_unfiltered (importer : String) (specifiers : List String)
    (state other : State) :
    (resolveAll (unfiltered project) importer specifiers state).2 =
      (resolveAll project importer specifiers other).2 := by
  induction specifiers generalizing state other with
  | nil => rfl
  | cons specifier specifiers ih =>
    have same : (unfiltered project).resolve = project.resolve := rfl
    simp only [resolveAll, same]
    split
    · rfl
    · exact ih _ _
    · rw [ih]

/-- What a file imports does not depend on the filter, which is asked only about the imports
afterwards. -/
theorem importsOf_unfiltered (path : String) (state other : State) :
    (importsOf (unfiltered project) path state).2 = (importsOf project path other).2 := by
  have same : (unfiltered project).tree = project.tree := rfl
  simp only [importsOf, same]
  split
  · rfl
  · split
    · rfl
    · exact resolveAll_unfiltered _ _ _ _

/-- Both walks find the same imports of a file. -/
theorem Filtered.importsOf {full part after : State} {path : String} {imports : List String}
    (filtered : Filtered project full part)
    (links : importsOf (unfiltered project) path full = (after, .ok imports)) :
    ∃ other, Walk.importsOf project path part = (other, .ok imports) ∧
      Filtered project after other := by
  obtain ⟨events, fullState⟩ := @importsOf_state (unfiltered project) path full
  obtain ⟨others, partState⟩ := @importsOf_state project path part
  have found := @importsOf_unfiltered project path full part
  rw [links] at fullState found
  subst fullState
  exact ⟨_, Prod.ext partState found.symm, ⟨filtered.visited, filtered.compiled⟩⟩

/-- An accepted file that is compiled adds its CSS behind that of others. -/
theorem compiled_contribute {dialect : Dialect} {path : String} {compiled : Compile.Compiled}
    (accepted : project.accepts path = true)
    (result : (project.compile dialect path).result = .ok compiled) (state : State) :
    (contribute project dialect path state).fault = none ∧
      (contribute project dialect path state).state.compiled =
        state.compiled ++ [(path, compiled.css)] := by
  have logged : ∀ call : Option Compile.PeerCall,
      (call.elim state fun call => state.log (.called call)).compiled = state.compiled := by
    intro call
    cases call <;> rfl
  simp only [contribute, accepted, Bool.not_true, Bool.false_eq_true, if_false, result,
    State.store, compiled_foldl_record, logged, and_self]

/-- **Adding CSS where the filter lets it.** If the filter rejects the file, the walk without it
compiles one file more, and the other state stays as it was. -/
theorem Filtered.contribute {full part : State} {dialect : Dialect} {path : String}
    (filtered : Filtered project full part)
    (succeeds : (contribute (unfiltered project) dialect path full).fault = none) :
    (contribute project dialect path part).fault = none ∧
      Filtered project (contribute (unfiltered project) dialect path full).state
        (Walk.contribute project dialect path part).state := by
  cases result : (project.compile dialect path).result with
  | error fault =>
    have same : (unfiltered project).compile = project.compile := rfl
    have open_ : (unfiltered project).accepts path = true := rfl
    simp only [Walk.contribute, open_, Bool.not_true, Bool.false_eq_true, if_false, same,
      result] at succeeds
    cases succeeds
  | ok compiled =>
    obtain ⟨-, fullCompiled⟩ := @compiled_contribute (unfiltered project) dialect path compiled rfl
      result full
    cases accepted : project.accepts path with
    | true =>
      obtain ⟨partSucceeds, partCompiled⟩ := compiled_contribute accepted result part
      refine ⟨partSucceeds, ?_, ?_⟩
      · rw [visited_contribute, visited_contribute, filtered.visited]
      · simp only [partCompiled, fullCompiled, List.filter_append, filtered.compiled, accepted,
          List.filter_cons_of_pos, List.filter_nil]
    | false =>
      have silent : Walk.contribute project dialect path part = { state := part } := by
        rw [Walk.contribute, if_pos (by rw [accepted]; rfl)]
      rw [silent]
      refine ⟨rfl, ?_, ?_⟩
      · rw [visited_contribute, filtered.visited]
      · simp [fullCompiled, filtered.compiled, accepted]

/-! ## Visits -/

mutual

/-- **A visit that succeeds without the filter succeeds with it**, and leaves states that stand side
by side. -/
theorem Visit.filtered {path : String} {full part : State} {outcome : Outcome} :
    Visit (unfiltered project) entry path full outcome → outcome.fault = none →
      Filtered project full part →
      ∃ other, Visit project entry path part other ∧ other.fault = none ∧
        Filtered project outcome.state other.state
  | .again known => fun _ filtered =>
    ⟨_, .again (filtered.visited ▸ known), rfl, filtered⟩
  | .other new kind => fun _ filtered =>
    ⟨_, .other (filtered.not_mem new) kind, rfl, filtered.mark path⟩
  | .installed new kind imported installed => fun _ filtered =>
    ⟨_, .installed (filtered.not_mem new) kind imported installed, rfl, filtered.mark path⟩
  | .sheet new kind plain => fun succeeds filtered =>
    ⟨_, .sheet (filtered.not_mem new) kind plain,
      ((filtered.mark path).record path).contribute succeeds⟩
  | .unlinked _ _ _ => fun succeeds => nomatch succeeds
  | .script new kind own links visits => fun succeeds filtered => by
    obtain ⟨begun, partLinks, beside⟩ := ((filtered.mark path).record path).importsOf links
    obtain ⟨other, partVisits, partSucceeds, after⟩ := visits.filtered succeeds beside
    exact ⟨other, .script (filtered.not_mem new) kind own partLinks partVisits, partSucceeds, after⟩
  | .module new kind links visits => fun succeeds filtered => by
    obtain ⟨visitsSucceed, contributes⟩ := succeeds_of_andThen succeeds
    obtain ⟨begun, partLinks, beside⟩ := ((filtered.mark path).record path).importsOf links
    obtain ⟨other, partVisits, partSucceeds, after⟩ := visits.filtered visitsSucceed beside
    refine ⟨_, .module (filtered.not_mem new) kind partLinks partVisits, ?_⟩
    rw [andThen_of_succeeds visitsSucceed, andThen_of_succeeds partSucceeds]
    exact after.contribute contributes

/-- Visits that succeed one after the other without the filter do so with it. They go from path to
path, and what was left out so far stays the only difference. -/
theorem VisitAll.filtered {paths : List String} {full part : State} {outcome : Outcome} :
    VisitAll (unfiltered project) entry paths full outcome → outcome.fault = none →
      Filtered project full part →
      ∃ other, VisitAll project entry paths part other ∧ other.fault = none ∧
        Filtered project outcome.state other.state
  | .nil => fun _ filtered => ⟨_, .nil, rfl, filtered⟩
  | .cons visit visitSucceeds visits => fun succeeds filtered => by
    obtain ⟨first, partVisit, firstSucceeds, beside⟩ := visit.filtered visitSucceeds filtered
    obtain ⟨other, partVisits, partSucceeds, after⟩ := visits.filtered succeeds beside
    exact ⟨other, .cons partVisit firstSucceeds partVisits, partSucceeds, after⟩
  | .fail _ fails => fun succeeds => by
    rw [succeeds] at fails
    cases fails

end

/-! ## The theorem -/

/-- The chunks of the walk with the filter are those of the accepted files. -/
theorem Filtered.chunks {full part : State} (filtered : Filtered project full part) :
    part.chunks = full.chunks.filter fun chunk => project.accepts chunk.1 := by
  rw [State.chunks, State.chunks, filtered.compiled, List.filter_comm]

/-- **A filter takes away the CSS of what it does not accept, and nothing else.** If the walk
without it succeeds, the walk with it does. It visits the same files in the same order; it records
those of them that it does not pass over, beside these only what compiling an accepted file reports;
and its chunks are those of the other walk that accepted files have added. -/
theorem walkFrom_filtered (project : Project) (entry : String) (events : List Event)
    (succeeds : (walkFrom (unfiltered project) entry { events }).fault = none) :
    let full := (walkFrom (unfiltered project) entry { events }).state
    let part := (walkFrom project entry { events }).state
    (walkFrom project entry { events }).fault = none ∧
      part.visited = full.visited ∧
      (∀ file, file ∈ part.files ↔
        (file ∈ part.visited ∧ isPassed entry file = false) ∨
          ∃ path ∈ part.visited, Contributes project path ∧ Reports project path file) ∧
      part.chunks = full.chunks.filter fun chunk => project.accepts chunk.1 := by
  intro full part
  have visit := visit_walkFrom (unfiltered project) entry { events }
  obtain ⟨outcome, partVisit, partSucceeds, filtered⟩ :=
    visit.filtered succeeds (⟨rfl, rfl⟩ : Filtered project { events } { events })
  have same : walkFrom project entry { events } = outcome := partVisit.walkFrom_eq
  subst same
  refine ⟨partSucceeds, filtered.visited, fun file => ?_, filtered.chunks⟩
  -- the files of the second walk are known from what it marks, and it marks what the first does
  have covers := (partVisit.covers partSucceeds).1
  rw [covers.files file]
  simp only [List.not_mem_nil, not_false_eq_true, and_true, false_or, Adds, and_or_left, exists_or]
  refine or_congr_left ⟨?_, fun cared => ⟨file, cared.1, rfl, cared.2⟩⟩
  rintro ⟨path, mem, rfl, cared⟩
  exact ⟨mem, cared⟩

/-- A script and a CSS-in-TS module import each other. The script imports a sheet as well, which is
not accepted, and an image. -/
def gated : Project :=
  { tree :=
      { files :=
          [(["a.ts"], .text "import './b.css';import './c.css';import './d.png';"),
            (["b.css"], .text ".b{}"),
            (["c.css.ts"], .text "import './a';"),
            (["d.png"], .text "")] }
    resolve := fun specifier _ =>
      match specifier with
      | "./a" => .found "/a.ts"
      | "./b.css" => .found "/b.css"
      | "./c.css" => .found "/c.css.ts"
      | "./d.png" => .found "/d.png"
      | _ => .notFound
    compile := fun _ path => { result := .ok { css := path, loaded := [path] } }
    accepts := fun path => path ≠ "/b.css" }

/-- The walk without the filter of the tree used below, evaluated. -/
private theorem walkFrom_unfiltered_gated : walkFrom (unfiltered gated) "/a.ts" {} =
    { state :=
        { visited := ["/d.png", "/c.css.ts", "/b.css", "/a.ts"]
          files := ["/a.ts", "/b.css", "/c.css.ts"]
          compiled := [("/b.css", "/b.css"), ("/c.css.ts", "/c.css.ts")]
          events :=
            [.resolved "./b.css" "/a.ts", .resolved "./c.css" "/a.ts",
              .resolved "./d.png" "/a.ts", .resolved "./a" "/c.css.ts"] } } := by
  refine run_eq_of_runWithin 8 ?_
  decide +kernel

/-- The walk with it, which passes over the image and what only the script behind the gate leads to.
-/
private theorem walkFrom_gated : walkFrom gated "/a.ts" {} =
    { state :=
        { visited := ["/d.png", "/c.css.ts", "/b.css", "/a.ts"]
          files := ["/a.ts", "/b.css", "/c.css.ts"]
          compiled := [("/c.css.ts", "/c.css.ts")]
          events :=
            [.resolved "./b.css" "/a.ts", .resolved "./c.css" "/a.ts",
              .resolved "./d.png" "/a.ts", .resolved "./a" "/c.css.ts"] } } := by
  refine run_eq_of_runWithin 8 ?_
  decide +kernel

/-- The statement at that tree, where the filter keeps one import out and an image is passed over on
its own account. -/
theorem walkFrom_filtered_gated :
    (walkFrom (unfiltered gated) "/a.ts" {}).fault = none ∧
      (walkFrom gated "/a.ts" {}).fault = none ∧
      (walkFrom gated "/a.ts" {}).state.visited = ["/d.png", "/c.css.ts", "/b.css", "/a.ts"] ∧
      (∀ file, file ∈ ["/a.ts", "/b.css", "/c.css.ts"] ↔
        (file ∈ ["/d.png", "/c.css.ts", "/b.css", "/a.ts"] ∧ isPassed "/a.ts" file = false) ∨
          ∃ path ∈ ["/d.png", "/c.css.ts", "/b.css", "/a.ts"],
            Contributes gated path ∧ Reports gated path file) ∧
      (walkFrom gated "/a.ts" {}).state.chunks =
        [("/b.css", "/b.css"), ("/c.css.ts", "/c.css.ts")].filter
          fun chunk => gated.accepts chunk.1 := by
  have succeeds : (walkFrom (unfiltered gated) "/a.ts" {}).fault = none := by
    rw [walkFrom_unfiltered_gated]
  obtain ⟨partSucceeds, visited, files, chunks⟩ := walkFrom_filtered gated "/a.ts" [] succeeds
  rw [walkFrom_unfiltered_gated] at visited chunks
  rw [visited, walkFrom_gated] at files
  exact ⟨succeeds, partSucceeds, visited, files, chunks⟩

/-- **A visited file need not be recorded**, with the filter or without: the image is passed over. -/
theorem visited_not_recorded :
    (walkFrom (unfiltered gated) "/a.ts" {}).fault = none ∧
      "/d.png" ∈ (walkFrom gated "/a.ts" {}).state.visited ∧
      "/d.png" ∉ (walkFrom gated "/a.ts" {}).state.files ∧
      "/d.png" ∉ (walkFrom (unfiltered gated) "/a.ts" {}).state.files := by
  rw [walkFrom_gated, walkFrom_unfiltered_gated]
  decide

end StyleGraph.Walk
