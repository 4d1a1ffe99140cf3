import StyleGraph.Proofs.Walk.Reach

/-!
# The order of the CSS

A sheet adds its CSS when a walk comes to it, and a CSS-in-TS module after all that it imports. A
file that it imports may have been visited long before, or be imported again later; it may also be
marked while its own imports still wait, and then its CSS comes too late.

`walkFrom_follows` says that the last case is that of a cycle. A module that does not lead back to
itself comes behind all style files that it leads to, in every walk that succeeds.

The files whose imports wait at the time of a visit all lead to the visited file. So no file that
lies on no cycle leads to one of them, and what it leads to is settled when its own CSS is added: it
is marked, so are its imports, and it has added its CSS (`Settled`).
-/

set_option autoImplicit false

namespace StyleGraph.Walk

open Relation (TransGen)

variable {project : Project} {entry : String}

/-- A walk goes from a file to one that it imports. -/
def Walks (project : Project) (entry path target : String) : Prop :=
  Follows entry path ∧ Imports project path target

/-- The relation of the statement, read at one file whose imports are known. -/
theorem walks_iff {path target : String} {state : State} {imports : List String}
    (follows : Follows entry path) (links : (importsOf project path state).2 = .ok imports) :
    Walks project entry path target ↔ target ∈ imports := by
  rw [Walks, and_iff_right follows, mem_importsOf_iff (Prod.ext rfl links)]

/-! ## What is settled -/

/-- **What is marked was dealt with**, but for the files that wait: its imports are marked, and it
has added its CSS. -/
structure Settled (project : Project) (entry : String) (waiting : List String) (state : State) :
    Prop where
  closed : ∀ path ∈ state.visited, path ∉ waiting → ∀ target, Walks project entry path target →
    target ∈ state.visited
  compiled : ∀ path ∈ state.visited, path ∉ waiting → Contributes project path →
    path ∈ state.compiled.map Prod.fst

namespace Settled

variable {waiting : List String} {state after : State} {path : String}

/-- What leaves no gap leaves all settled that was so before. What is newly marked is settled by the
visits themselves. -/
theorem of_covers (settled : Settled project entry waiting state)
    (covers : Covers project entry state after) : Settled project entry waiting after where
  closed := by
    intro other mem free target walks
    by_cases early : other ∈ state.visited
    · exact covers.grown (settled.closed other early free target walks)
    · exact covers.closed other mem early walks.1 target walks.2
  compiled := by
    intro other mem free contributes
    obtain ⟨added, compiled, -, members⟩ := covers.compiled
    rw [compiled, List.map_append, List.mem_append]
    by_cases early : other ∈ state.visited
    · exact .inl (settled.compiled other early free contributes)
    · exact .inr ((members other).mpr ⟨⟨mem, early⟩, contributes⟩)

/-- A file that gets its mark waits. It is excepted as long as it waits, so nothing is asked of it
yet. -/
theorem begun (settled : Settled project entry waiting state)
    (marked : after.visited = path :: state.visited) (compiled : after.compiled = state.compiled) :
    Settled project entry (path :: waiting) after where
  closed := by
    intro other mem free target walks
    rw [List.mem_cons, not_or] at free
    rw [marked] at mem ⊢
    have early := (List.mem_cons.mp mem).resolve_left free.1
    exact List.mem_cons_of_mem _ (settled.closed other early free.2 target walks)
  compiled := by
    intro other mem free contributes
    rw [List.mem_cons, not_or] at free
    rw [marked] at mem
    rw [compiled]
    exact settled.compiled other ((List.mem_cons.mp mem).resolve_left free.1) free.2 contributes

/-- **A file that does not lead back to itself leads to nothing that waits**, once its imports were
visited. -/
theorem mem_of_transGen (settled : Settled project entry (path :: waiting) state)
    (imported : ∀ target, Walks project entry path target → target ∈ state.visited)
    (leads : ∀ other ∈ waiting, TransGen (Walks project entry) other path)
    (acyclic : ¬ TransGen (Walks project entry) path path) {target : String}
    (reach : TransGen (Walks project entry) path target) :
    target ∈ state.visited ∧ target ∉ path :: waiting := by
  have free : ∀ {other}, TransGen (Walks project entry) path other → other ∉ path :: waiting := by
    intro other reach waits
    rcases List.mem_cons.mp waits with rfl | waits
    · exact acyclic reach
    · exact acyclic (reach.trans (leads other waits))
  refine ⟨?_, free reach⟩
  induction reach with
  | single walks => exact imported _ walks
  | tail reach walks ih => exact settled.closed _ ih (free reach) _ walks

end Settled

/-! ## The order -/

/-- Every file that does not lead back to itself comes behind all that it leads to and that adds
CSS. -/
def InOrder (project : Project) (entry : String) (compiled : List (String × String)) : Prop :=
  ∀ before file after, compiled = before ++ file :: after →
    ¬ TransGen (Walks project entry) file.1 file.1 →
    ∀ target, TransGen (Walks project entry) file.1 target → Contributes project target →
      target ∈ before.map Prod.fst

/-- Nothing is out of order before the walk begins. -/
theorem inOrder_nil : InOrder project entry [] := by
  intro before file after cut
  cases before <;> cases cut

/-- A file may add its CSS when all that it leads to has. A file of a circle is left out of the
condition: what it leads to may be waiting for it. -/
theorem InOrder.contributed {path : String} {state after : State}
    (ordered : InOrder project entry state.compiled)
    (contributed : Contributed project path state after)
    (led : ¬ TransGen (Walks project entry) path path →
      ∀ target, TransGen (Walks project entry) path target → Contributes project target →
        target ∈ state.compiled.map Prod.fst) : InOrder project entry after.compiled := by
  obtain ⟨added, compiled, -, members⟩ := contributed.compiled
  have own : ∀ file ∈ added, file.1 = path := fun file mem =>
    ((members file.1).mp (List.mem_map_of_mem mem)).1
  intro first file last cut acyclic target reach contributes
  rw [compiled] at cut
  rcases List.append_eq_append_iff.mp cut with ⟨between, rfl, rfl⟩ | ⟨between, early, late⟩
  · have same := own file (by simp)
    rw [same] at acyclic reach
    rw [List.map_append, List.mem_append]
    exact .inl (led acyclic target reach contributes)
  · cases between with
    | nil =>
      have same := own file (by rw [← List.nil_append added, ← late]; exact List.mem_cons_self)
      rw [same] at acyclic reach
      rw [List.append_nil] at early
      exact early ▸ led acyclic target reach contributes
    | cons other between =>
      obtain ⟨rfl, rfl⟩ := List.cons.inj late
      exact ordered first _ between early acyclic target reach contributes

/-- A sheet leads nowhere. -/
theorem not_transGen_of_sheet {path target : String} {dialect : Dialect}
    (kind : Kind.ofPath path = .style dialect) (plain : dialect ≠ .vanilla) :
    ¬ TransGen (Walks project entry) path target := by
  intro reach
  obtain ⟨_, walks, -⟩ := TransGen.head'_iff.mp reach
  rcases walks.1 with vanilla | ⟨script, -⟩
  · rw [kind] at vanilla
    cases vanilla
    exact plain rfl
  · rw [kind] at script
    cases script

/-- What waits while the imports of a file are visited leads to them. -/
theorem leads_of_links {path : String} {before after : State} {imports waiting : List String}
    (follows : Follows entry path)
    (links : importsOf project path before = (after, .ok imports))
    (leads : ∀ other ∈ waiting, TransGen (Walks project entry) other path) :
    ∀ other ∈ path :: waiting, ∀ target ∈ imports,
      TransGen (Walks project entry) other target := by
  intro other waits target mem
  have walks : Walks project entry path target :=
    (walks_iff follows (congrArg Prod.snd links)).mpr mem
  rcases List.mem_cons.mp waits with rfl | waits
  · exact .single walks
  · exact (leads other waits).tail walks

mutual

/-- **A visit that succeeds keeps the order**, if what waits leads to its file. By induction on the
visit. The files that wait have begun and not yet ended, and what leads back to one of them is on a
circle. -/
theorem Visit.inOrder {path : String} {state : State} {outcome : Outcome} :
    Visit project entry path state outcome → outcome.fault = none →
      ∀ {waiting : List String}, Settled project entry waiting state →
        (∀ other ∈ waiting, TransGen (Walks project entry) other path) →
        InOrder project entry state.compiled → InOrder project entry outcome.state.compiled
  | .again _ => fun _ _ _ _ ordered => ordered
  | .other _ _ => fun _ _ _ _ ordered => ordered
  | .installed _ _ _ _ => fun _ _ _ _ ordered => ordered
  | .sheet _ kind plain => fun succeeds _ _ _ ordered => by
    have same : ((state.mark path).record path).compiled = state.compiled :=
      compiled_foldl_record [path] (state.mark path)
    rw [← same] at ordered
    exact ordered.contributed (contributed_contribute kind succeeds) fun _ _ reach =>
      absurd reach (not_transGen_of_sheet kind plain)
  | .unlinked _ _ _ => fun succeeds => nomatch succeeds
  | .script _ kind own links visits => fun succeeds _ settled leads ordered => by
    obtain ⟨marked, compiled, -⟩ := begun_importsOf links
    refine visits.inOrder succeeds (settled.begun marked compiled) ?_ (compiled ▸ ordered)
    exact leads_of_links (.inr ⟨kind, own⟩) links leads
  | .module _ kind links visits => fun succeeds _ settled leads ordered => by
    obtain ⟨visitsSucceed, contributes⟩ := succeeds_of_andThen succeeds
    obtain ⟨marked, compiled, -⟩ := begun_importsOf links
    have begun := settled.begun marked compiled
    have within := visits.inOrder visitsSucceed begun (leads_of_links (.inl kind) links leads)
      (compiled ▸ ordered)
    obtain ⟨covers, visited⟩ := visits.covers visitsSucceed
    rw [andThen_of_succeeds visitsSucceed]
    refine within.contributed (contributed_contribute kind contributes) ?_
    intro acyclic target reach adds
    have done := begun.of_covers covers
    have imported (next : String) (walks : Walks project entry path next) :=
      visited next ((walks_iff (.inl kind) (congrArg Prod.snd links)).mp walks)
    obtain ⟨mem, free⟩ := done.mem_of_transGen imported leads acyclic reach
    exact done.compiled target mem free adds

/-- Visits that succeed one after the other keep the order. After each visit all is settled again
but what waits, so the next one can start from there. -/
theorem VisitAll.inOrder {paths : List String} {state : State} {outcome : Outcome} :
    VisitAll project entry paths state outcome → outcome.fault = none →
      ∀ {waiting : List String}, Settled project entry waiting state →
        (∀ other ∈ waiting, ∀ path ∈ paths, TransGen (Walks project entry) other path) →
        InOrder project entry state.compiled → InOrder project entry outcome.state.compiled
  | .nil => fun _ _ _ _ ordered => ordered
  | .cons visit visitSucceeds visits => fun succeeds _ settled leads ordered => by
    have first := visit.inOrder visitSucceeds settled
      (fun other waits => leads other waits _ List.mem_cons_self) ordered
    exact visits.inOrder succeeds (settled.of_covers (visit.covers visitSucceeds).1)
      (fun other waits path mem => leads other waits path (List.mem_cons_of_mem _ mem)) first
  | .fail _ fails => fun succeeds => by
    rw [succeeds] at fails
    cases fails

end

/-- A walk from nothing that succeeds compiles in order. -/
theorem Visit.inOrder_compiled {events : List Event} {outcome : Outcome}
    (visit : Visit project entry entry { events } outcome) (succeeds : outcome.fault = none) :
    InOrder project entry outcome.state.compiled := by
  have settled : Settled project entry [] { events } :=
    ⟨fun _ mem => absurd mem List.not_mem_nil, fun _ mem => absurd mem List.not_mem_nil⟩
  exact visit.inOrder succeeds settled (fun _ waits => absurd waits List.not_mem_nil) inOrder_nil

/-- A file that added CSS, and came before another file, added it before that one. Files without CSS
are compiled and not among the chunks, and no file is compiled twice. -/
theorem mem_of_chunks_eq {state : State} {before after : List (String × String)}
    {file : String × String} (nodup : (state.compiled.map Prod.fst).Nodup)
    (cut : state.chunks = before ++ file :: after) {chunk : String × String}
    (added : chunk ∈ state.chunks)
    (early : ∀ first last, state.compiled = first ++ file :: last → chunk.1 ∈ first.map Prod.fst) :
    chunk ∈ before := by
  obtain ⟨first, rest, split, rfl, restChunks⟩ := List.filter_eq_append_iff.mp cut
  obtain ⟨silent, last, rfl, isSilent, -, -⟩ := List.filter_eq_cons_iff.mp restChunks
  rw [← List.append_assoc] at split
  obtain ⟨other, mem, same⟩ := List.mem_map.mp (early _ last split)
  have otherCompiled : other ∈ state.compiled := split ▸ List.mem_append_left _ mem
  obtain ⟨compiled, filled⟩ := List.mem_filter.mp added
  obtain rfl : other = chunk := List.inj_on_of_nodup_map nodup otherCompiled compiled same
  rcases List.mem_append.mp mem with mem | mem
  · exact List.mem_filter.mpr ⟨mem, filled⟩
  · exact absurd filled (isSilent _ mem)

/-! ## The theorem -/

/-- **CSS-in-TS modules follow what they import.** In a walk that succeeds every file is compiled
once at most. A file that does not lead back to itself is compiled behind all accepted style files
that it leads to, whatever else leads to them, and so its CSS stands behind theirs. In an acyclic
graph this is so of every file; of the style files only CSS-in-TS modules lead anywhere. -/
theorem walkFrom_follows (project : Project) (entry : String) (events : List Event)
    (succeeds : (walkFrom project entry { events }).fault = none) :
    let final := (walkFrom project entry { events }).state
    (final.compiled.map Prod.fst).Nodup ∧
      (∀ before module css after, final.compiled = before ++ (module, css) :: after →
        ¬ TransGen (Walks project entry) module module →
        ∀ target, TransGen (Walks project entry) module target →
          (∃ dialect, Kind.ofPath target = .style dialect) → project.accepts target = true →
          target ∈ before.map Prod.fst) ∧
      ∀ before module css after, final.chunks = before ++ (module, css) :: after →
        ¬ TransGen (Walks project entry) module module →
        ∀ target text, TransGen (Walks project entry) module target →
          (target, text) ∈ final.chunks → (target, text) ∈ before := by
  intro final
  have visit := visit_walkFrom project entry { events }
  have ordered := visit.inOrder_compiled succeeds
  obtain ⟨members, nodup⟩ := visit.mem_compiled_iff succeeds
  refine ⟨nodup, fun before module css after cut acyclic target reach style accepted =>
    ordered before _ after cut acyclic target reach ⟨style, accepted⟩, ?_⟩
  intro before module css after cut acyclic target text reach added
  refine mem_of_chunks_eq nodup cut added fun first last split => ?_
  have compiled : (target, text) ∈ final.compiled := List.mem_of_mem_filter added
  have contributes := ((members target).mp (List.mem_map_of_mem compiled)).2
  exact ordered first _ last split acyclic target reach contributes

/-- A script imports a sheet, a module and another sheet. The module leads to both of them, and to a
module of its own, by way of a script. -/
def layered : Project where
  tree :=
    { files :=
        [(["a.ts"], .text "import './b.css';import './m.css';import './z.css';"),
          (["b.css"], .text ""),
          (["m.css.ts"], .text "import './n';import './z.css';"),
          (["n.ts"], .text "import './b.css';import './o.css';"),
          (["o.css.ts"], .text "import './b.css';"),
          (["z.css"], .text "")] }
  resolve := fun specifier _ =>
    match specifier with
    | "./b.css" => .found "/b.css"
    | "./m.css" => .found "/m.css.ts"
    | "./n" => .found "/n.ts"
    | "./o.css" => .found "/o.css.ts"
    | "./z.css" => .found "/z.css"
    | _ => .notFound
  compile := fun _ path => { result := .ok { css := path, loaded := [] } }
  accepts := fun _ => true

/-- The walk of the tree used below, evaluated. -/
private theorem walkFrom_layered : walkFrom layered "/a.ts" {} =
    { state :=
        { visited := ["/z.css", "/o.css.ts", "/n.ts", "/m.css.ts", "/b.css", "/a.ts"]
          files := ["/a.ts", "/b.css", "/m.css.ts", "/n.ts", "/o.css.ts", "/z.css"]
          compiled := [("/b.css", "/b.css"), ("/o.css.ts", "/o.css.ts"), ("/z.css", "/z.css"),
            ("/m.css.ts", "/m.css.ts")]
          events :=
            [.resolved "./b.css" "/a.ts", .resolved "./m.css" "/a.ts", .resolved "./z.css" "/a.ts",
              .resolved "./n" "/m.css.ts", .resolved "./z.css" "/m.css.ts",
              .resolved "./b.css" "/n.ts", .resolved "./o.css" "/n.ts",
              .resolved "./b.css" "/o.css.ts"] } } := by
  refine run_eq_of_runWithin 13 ?_
  decide +kernel

/-- The imports of the module, and of what it leads to. -/
private theorem walks_layered (target : String) :
    (Walks layered "/a.ts" "/m.css.ts" target ↔ target ∈ ["/n.ts", "/z.css"]) ∧
      (Walks layered "/a.ts" "/n.ts" target ↔ target ∈ ["/b.css", "/o.css.ts"]) ∧
      (Walks layered "/a.ts" "/o.css.ts" target ↔ target ∈ ["/b.css"]) := by
  have follows : Follows "/a.ts" "/m.css.ts" ∧ Follows "/a.ts" "/n.ts" ∧
      Follows "/a.ts" "/o.css.ts" := by
    unfold Follows
    decide
  have links : (importsOf layered "/m.css.ts" {}).2 = .ok ["/n.ts", "/z.css"] ∧
      (importsOf layered "/n.ts" {}).2 = .ok ["/b.css", "/o.css.ts"] ∧
      (importsOf layered "/o.css.ts" {}).2 = .ok ["/b.css"] := by
    decide +kernel
  exact ⟨walks_iff follows.1 links.1, walks_iff follows.2.1 links.2.1,
    walks_iff follows.2.2 links.2.2⟩

/-- The module does not lead back to itself. -/
private theorem acyclic_layered :
    ¬ TransGen (Walks layered "/a.ts") "/m.css.ts" "/m.css.ts" := by
  let below := ["/n.ts", "/o.css.ts", "/b.css", "/z.css"]
  suffices leads : ∀ target, TransGen (Walks layered "/a.ts") "/m.css.ts" target →
      target ∈ below from
    fun reach => absurd (leads _ reach) (by decide)
  have sheets : Kind.ofPath "/b.css" = .style .css ∧ Kind.ofPath "/z.css" = .style .css :=
    ⟨rfl, rfl⟩
  have inside : ["/n.ts", "/z.css"] ⊆ below ∧ ["/b.css", "/o.css.ts"] ⊆ below ∧
      ["/b.css"] ⊆ below := by
    decide
  intro target reach
  induction reach with
  | single walks => exact inside.1 ((walks_layered _).1.mp walks)
  | tail _ walks ih =>
    simp only [below, List.mem_cons, List.not_mem_nil, or_false] at ih
    rcases ih with rfl | rfl | rfl | rfl
    · exact inside.2.1 ((walks_layered _).2.1.mp walks)
    · exact inside.2.2 ((walks_layered _).2.2.mp walks)
    · exact absurd (.single walks) (not_transGen_of_sheet sheets.1 (by decide))
    · exact absurd (.single walks) (not_transGen_of_sheet sheets.2 (by decide))

/-- The statement at a tree of four style files, one of which imports the others directly and
through each other. -/
theorem walkFrom_follows_layered :
    (walkFrom layered "/a.ts" {}).fault = none ∧
      ¬ TransGen (Walks layered "/a.ts") "/m.css.ts" "/m.css.ts" ∧
      (walkFrom layered "/a.ts" {}).state.chunks =
        [("/b.css", "/b.css"), ("/o.css.ts", "/o.css.ts"), ("/z.css", "/z.css")] ++
          [("/m.css.ts", "/m.css.ts")] ∧
      ∀ target ∈ ["/b.css", "/o.css.ts", "/z.css"],
        TransGen (Walks layered "/a.ts") "/m.css.ts" target ∧
          (target, target) ∈
            [("/b.css", "/b.css"), ("/o.css.ts", "/o.css.ts"), ("/z.css", "/z.css")] := by
  have succeeds : (walkFrom layered "/a.ts" {}).fault = none := by rw [walkFrom_layered]
  have chunks : (walkFrom layered "/a.ts" {}).state.chunks =
      [("/b.css", "/b.css"), ("/o.css.ts", "/o.css.ts"), ("/z.css", "/z.css")] ++
        [("/m.css.ts", "/m.css.ts")] := by
    rw [walkFrom_layered]
    decide
  obtain ⟨-, -, follows⟩ := walkFrom_follows layered "/a.ts" [] succeeds
  have script : TransGen (Walks layered "/a.ts") "/m.css.ts" "/n.ts" :=
    .single ((walks_layered _).1.mpr (by decide))
  have reaches : ∀ target ∈ ["/b.css", "/o.css.ts", "/z.css"],
      TransGen (Walks layered "/a.ts") "/m.css.ts" target := by
    intro target mem
    simp only [List.mem_cons, List.not_mem_nil, or_false] at mem
    rcases mem with rfl | rfl | rfl
    · exact script.tail ((walks_layered _).2.1.mpr (by decide))
    · exact script.tail ((walks_layered _).2.1.mpr (by decide))
    · exact .single ((walks_layered _).1.mpr (by decide))
  refine ⟨succeeds, acyclic_layered, chunks, fun target mem => ⟨reaches target mem, ?_⟩⟩
  refine follows _ _ _ _ chunks acyclic_layered target target (reaches target mem) ?_
  rw [chunks]
  simp only [List.mem_cons, List.not_mem_nil, or_false] at mem
  rcases mem with rfl | rfl | rfl <;> decide

end StyleGraph.Walk
