import StyleGraph.Proofs.Static.Order

/-!
# What the modules of a project denote

The meaning of a CSS-in-TS module is recursive: it is evaluated with the exports of what its imports
denote (`Denotes`). `evaluateFile` has no recursion of this kind. It reads, puts in order and then
evaluates in one pass, with a table of results.

`evaluateFile_denotes` says how the two agree, for every tree and entry. Reading ends; the order
holds what imports lead to, each module once, and the entry last; the pass evaluates the modules one
by one (`Evaluates`). Where no module leads back to itself, the pass succeeds just when the entry
denotes something, and what it binds and gives is what the modules denote.
-/

set_option autoImplicit false

namespace StyleGraph.Static

open Relation (ReflTransGen TransGen)

variable {tree : FileTree} {project : String} {sources : Sources} {entry : String}

/-! ## Environments -/

/-- The exports of an environment in which no specifier has two lists of exports. So the order of
such an environment makes no difference. -/
theorem Environment.exports?_eq_some_iff {environment : Environment}
    (single : ∀ specifier entries others, (specifier, entries) ∈ environment →
      (specifier, others) ∈ environment → entries = others) {specifier : String}
    {entries : Entries} :
    environment.exports? specifier = some entries ↔ (specifier, entries) ∈ environment := by
  constructor
  · intro found
    obtain ⟨binding, search, rfl⟩ := Option.map_eq_some_iff.mp found
    have same : binding.1 = specifier := by simpa using List.find?_some search
    exact same ▸ List.mem_of_find?_eq_some search
  · intro mem
    obtain ⟨binding, search⟩ : ∃ binding,
        environment.find? (fun binding => binding.1 = specifier) = some binding :=
      Option.isSome_iff_exists.mp (List.find?_isSome.mpr ⟨_, mem, by simp⟩)
    have same : binding.1 = specifier := by simpa using List.find?_some search
    have listed : (specifier, binding.2) ∈ environment :=
      same ▸ List.mem_of_find?_eq_some search
    rw [exports?, search, single specifier entries binding.2 mem listed]
    rfl

/-- Of an environment only the exports of each specifier count. The statements look up specifiers,
and do nothing else with it. -/
theorem evaluateModule_congr {source path : String} {environment other : Environment}
    (same : ∀ specifier, environment.exports? specifier = other.exports? specifier) :
    evaluateModule source path project environment = evaluateModule source path project other := by
  have names : ∀ exported names source, Exported.addNames exported environment names source =
      Exported.addNames exported other names source := by
    intro exported names source
    cases source <;> simp only [Exported.addNames, same]
  have all : ∀ exported name source, Exported.addAll exported environment name source =
      Exported.addAll exported other name source := by
    intro exported name source
    simp only [Exported.addAll, same]
  have steps : ∀ naming, Eval.step naming environment = Eval.step naming other := by
    intro naming
    funext exported statement
    unfold Eval.step
    simp only [same, names, all]
  unfold evaluateModule evaluateStatements runStatements
  simp only [steps]

/-! ## Denotation -/

/-- The environment of a module whose imports denote something. -/
def Source.environment (source : Source) (imported : String → Evaluated) : Environment :=
  source.links.map fun link => (link.1, (imported link.2).exports)

/-- **What a module denotes**: its evaluation with the exports of what its imports denote. -/
inductive Denotes (tree : FileTree) (project : String) : String → Evaluated → Prop
  | module {path : String} {source : Source} {evaluated : Evaluated}
      (imported : String → Evaluated) (read : readSource tree path = .ok source)
      (imports : ∀ target ∈ source.targets, Denotes tree project target (imported target))
      (evaluates : evaluateModule source.text path project (source.environment imported) =
        .ok evaluated) :
      Denotes tree project path evaluated

/-- A module denotes one thing at most. By induction along the imports, which denote one thing each.
-/
theorem Denotes.unique {path : String} {evaluated other : Evaluated}
    (denotes : Denotes tree project path evaluated) (again : Denotes tree project path other) :
    evaluated = other := by
  induction denotes generalizing other with
  | @module path source evaluated imported read _ evaluates ih =>
    obtain @⟨_, _, _, importedAgain, readAgain, importsAgain, evaluatesAgain⟩ := again
    rw [read] at readAgain
    cases readAgain
    have same : source.environment imported = source.environment importedAgain := by
      refine List.map_congr_left fun link mem => ?_
      rw [ih link.2 (List.mem_map_of_mem mem) (importsAgain link.2 (List.mem_map_of_mem mem))]
    rw [same, evaluatesAgain] at evaluates
    cases evaluates
    rfl

/-- With a module all that it leads to denotes something. -/
theorem Denotes.reached {path : String} {evaluated : Evaluated}
    (denotes : Denotes tree project entry evaluated)
    (reached : ReflTransGen (Imports tree) entry path) :
    ∃ other, Denotes tree project path other := by
  induction reached with
  | refl => exact ⟨evaluated, denotes⟩
  | tail _ imports ih =>
    obtain ⟨source, read, mem⟩ := imports
    obtain ⟨_, @⟨_, _, _, imported, readAgain, denoted, _⟩⟩ := ih
    rw [read] at readAgain
    cases readAgain
    exact ⟨_, denoted _ mem⟩

/-- A module that denotes something can be read. -/
theorem Denotes.exists_source {path : String} {evaluated : Evaluated}
    (denotes : Denotes tree project path evaluated) :
    ∃ source, readSource tree path = .ok source := by
  obtain ⟨_, read, _, _⟩ := denotes
  exact ⟨_, read⟩

/-! ## The pass -/

/-- A fault of the module at a path. -/
def Failure.at (path : String) : Failure → ProjectFault
  | .unreadable => .unreadable path
  | .faulty cause => .faulty path cause

/-- The trace of a pass over modules: each of them is evaluated once, with the exports of those
before it, until one fails. -/
inductive Evaluates (project : String) (sources : Sources) :
    List String → Results → Except ProjectFault Results → Prop
  | done {results : Results} : Evaluates project sources [] results (.ok results)
  | fail {path : String} {rest : List String} {results : Results} {source : Source}
      {failure : Failure} (found : sources.get? path = some source)
      (fails : evaluateModule source.text path project (environment results source.links) =
        .error failure) :
      Evaluates project sources (path :: rest) results (.error (failure.at path))
  | next {path : String} {rest : List String} {results : Results} {source : Source}
      {evaluated : Evaluated} {result : Except ProjectFault Results}
      (found : sources.get? path = some source)
      (succeeds : evaluateModule source.text path project (environment results source.links) =
        .ok evaluated)
      (others : Evaluates project sources rest (results ++ [(path, evaluated)]) result) :
      Evaluates project sources (path :: rest) results result

/-- The pass over an order is the relation, if all paths of the order have sources. The relation
says which module is at fault, which the function does not show. -/
theorem evaluates_evaluateAll {order : List String} (listed : ∀ path ∈ order, path ∈ sources.paths)
    (results : Results) :
    Evaluates project sources order results (evaluateAll project sources order results) := by
  induction order generalizing results with
  | nil => exact .done
  | cons path rest ih =>
    obtain ⟨source, found⟩ := Option.isSome_iff_exists.mp
      (Sources.isSome_get?_iff.mpr (listed path List.mem_cons_self))
    simp only [evaluateAll, found]
    cases evaluated : evaluateModule source.text path project
        (environment results source.links) with
    | ok value =>
      exact .next found evaluated
        (ih (fun other mem => listed other (List.mem_cons_of_mem _ mem)) _)
    | error failure =>
      have fails : Evaluates project sources (path :: rest) results (.error (failure.at path)) :=
        .fail found evaluated
      cases failure <;> exact fails

/-- The result of a module that was evaluated. -/
theorem Results.exists_get? {results : Results} {path : String}
    (mem : path ∈ results.map Prod.fst) :
    ∃ evaluated, results.get? path = some evaluated ∧ (path, evaluated) ∈ results := by
  obtain ⟨listed, isListed, rfl⟩ := List.mem_map.mp mem
  obtain ⟨result, search⟩ : ∃ result,
      results.find? (fun result => result.1 = listed.1) = some result :=
    Option.isSome_iff_exists.mp (List.find?_isSome.mpr ⟨_, isListed, by simp⟩)
  have same : result.1 = listed.1 := by simpa using List.find?_some search
  exact ⟨result.2, by rw [get?, search]; rfl, same ▸ List.mem_of_find?_eq_some search⟩

/-- A specifier is resolved in one way, so the order of the links does not count. Two links with one
specifier go to one module, and so bind the same exports. -/
theorem Source.exports?_environment_eq_some_iff {path : String} {source : Source}
    (read : readSource tree path = .ok source) (imported : String → Evaluated)
    {environment : Environment}
    (same : ∀ binding, binding ∈ environment ↔ binding ∈ source.environment imported)
    {specifier : String} {entries : Entries} :
    environment.exports? specifier = some entries ↔
      (specifier, entries) ∈ source.environment imported := by
  rw [Environment.exports?_eq_some_iff, same]
  intro specifier entries others mem again
  rw [same] at mem again
  obtain ⟨⟨_, target⟩, linked, bound⟩ := List.mem_map.mp mem
  obtain ⟨⟨_, other⟩, linkedAgain, boundAgain⟩ := List.mem_map.mp again
  cases bound
  cases boundAgain
  have resolved := resolve?_of_mem_links read linked
  rw [resolve?_of_mem_links read linkedAgain] at resolved
  cases resolved
  rfl

/-- **What a pass binds to imports is what they denote**, once they were evaluated. -/
theorem exports?_environment {path : String} {source : Source} {results : Results}
    (read : readSource tree path = .ok source) {imported : String → Evaluated}
    (evaluated : ∀ target ∈ source.targets, results.get? target = some (imported target)) :
    (∀ specifier, (environment results source.links).exports? specifier =
      (source.environment imported).exports? specifier) ∧
      ∀ link ∈ source.links, (environment results source.links).exports? link.1 =
        some (imported link.2).exports := by
  have same : ∀ binding, binding ∈ environment results source.links ↔
      binding ∈ source.environment imported := by
    intro binding
    simp only [environment, Source.environment, List.mem_filterMap, List.mem_reverse, List.mem_map]
    refine exists_congr fun link => and_congr_right fun mem => ?_
    rw [evaluated link.2 (List.mem_map_of_mem mem)]
    simp
  refine ⟨fun specifier => Option.ext fun entries => ?_, fun link mem => ?_⟩
  · rw [source.exports?_environment_eq_some_iff read imported same,
      source.exports?_environment_eq_some_iff read imported fun _ => Iff.rfl]
  · exact (source.exports?_environment_eq_some_iff read imported same).mpr
      (List.mem_map_of_mem mem)

/-- A table of results of which a pass can go on through an order: it holds what modules denote, and
each module that is to come stands behind those that it links to. -/
structure Ready (tree : FileTree) (project : String) (sources : Sources) (order : List String)
    (results : Results) : Prop where
  read : ∀ path source, sources.get? path = some source → readSource tree path = .ok source
  denoted : ∀ result ∈ results, Denotes tree project result.1 result.2
  linked : ∀ before path after, order = before ++ path :: after →
    ∀ target ∈ sources.targets path, target ∈ results.map Prod.fst ++ before

namespace Ready

variable {path : String} {rest : List String} {results : Results}

/-- Everything that the next module links to was evaluated to what it denotes. -/
theorem exists_imported (ready : Ready tree project sources (path :: rest) results)
    {source : Source} (found : sources.get? path = some source) :
    ∃ imported : String → Evaluated, ∀ target ∈ source.targets,
      results.get? target = some (imported target) ∧
        Denotes tree project target (imported target) := by
  refine ⟨fun target => (results.get? target).getD default, fun target mem => ?_⟩
  have evaluated := ready.linked [] path rest rfl target
    (Sources.mem_targets.mpr ⟨source, found, mem⟩)
  rw [List.append_nil] at evaluated
  obtain ⟨value, stored, listed⟩ := Results.exists_get? evaluated
  simp only [stored, Option.getD_some]
  exact ⟨trivial, ready.denoted _ listed⟩

/-- **One step of a pass** evaluates a module to what it denotes. The results so far bind the
imports to what these denote, and nothing else of them is looked at. -/
theorem evaluateModule_eq_ok_iff (ready : Ready tree project sources (path :: rest) results)
    {source : Source} (found : sources.get? path = some source) (evaluated : Evaluated) :
    evaluateModule source.text path project (environment results source.links) = .ok evaluated ↔
      Denotes tree project path evaluated := by
  have read := ready.read path source found
  obtain ⟨imported, stored⟩ := ready.exists_imported found
  rw [evaluateModule_congr (exports?_environment read fun target mem => (stored target mem).1).1]
  constructor
  · exact .module imported read fun target mem => (stored target mem).2
  · intro denotes
    obtain @⟨_, _, _, importedAgain, readAgain, imports, evaluates⟩ := denotes
    rw [read] at readAgain
    cases readAgain
    have same : source.environment imported = source.environment importedAgain := by
      refine List.map_congr_left fun link mem => ?_
      have target : link.2 ∈ source.targets := List.mem_map_of_mem mem
      rw [(stored link.2 target).2.unique (imports link.2 target)]
    rw [same]
    exact evaluates

/-- What is ready for a list is ready for the rest of it, once its first module has its result. The
first module is no longer asked for, and later ones find its result. -/
theorem next (ready : Ready tree project sources (path :: rest) results) {evaluated : Evaluated}
    (denotes : Denotes tree project path evaluated) :
    Ready tree project sources rest (results ++ [(path, evaluated)]) where
  read := ready.read
  denoted := by
    intro result mem
    rcases List.mem_append.mp mem with mem | mem
    · exact ready.denoted result mem
    · rw [List.mem_singleton.mp mem]
      exact denotes
  linked := by
    intro before other after cut target mem
    rw [List.map_append, List.append_assoc]
    exact ready.linked (path :: before) other after (congrArg (path :: ·) cut) target mem

end Ready

/-- The results stand in the order in which the modules were evaluated. -/
theorem Evaluates.paths {order : List String} {results final : Results}
    (evaluates : Evaluates project sources order results (.ok final)) :
    final.map Prod.fst = results.map Prod.fst ++ order := by
  generalize succeeds : Except.ok final = result at evaluates
  induction evaluates with
  | done => cases succeeds; exact (List.append_nil _).symm
  | fail _ _ => cases succeeds
  | next _ _ _ ih =>
    have whole := ih succeeds
    rwa [List.map_append, List.append_assoc] at whole

/-- **A pass over a part of an order** leaves a table of which it can go on through the rest. -/
theorem Evaluates.ready {order rest : List String} {results final : Results}
    (evaluates : Evaluates project sources order results (.ok final))
    (ready : Ready tree project sources (order ++ rest) results) :
    Ready tree project sources rest final := by
  generalize succeeds : Except.ok final = result at evaluates
  induction evaluates with
  | done => cases succeeds; exact ready
  | fail _ _ => cases succeeds
  | next found evaluates _ ih =>
    exact ih (ready.next ((ready.evaluateModule_eq_ok_iff found _).mp evaluates)) succeeds

/-- A pass over a whole order passes over each part of it. A fault in the part would have ended the
whole pass. -/
theorem exists_of_evaluateAll_append {first rest : List String} {results final : Results}
    (evaluates : evaluateAll project sources (first ++ rest) results = .ok final) :
    ∃ middle, evaluateAll project sources first results = .ok middle := by
  induction first generalizing results with
  | nil => exact ⟨results, rfl⟩
  | cons path first ih =>
    simp only [List.cons_append, evaluateAll] at evaluates ⊢
    split at evaluates
    · exact ih evaluates
    · split at evaluates
      · cases evaluates
      · cases evaluates
      · exact ih evaluates

/-- A pass goes through when every module denotes something. By induction on the pass, since a
module that fails would denote nothing. -/
theorem Evaluates.exists_ok {order : List String} {results : Results}
    {result : Except ProjectFault Results}
    (evaluates : Evaluates project sources order results result)
    (ready : Ready tree project sources order results)
    (meaningful : ∀ path ∈ order, ∃ evaluated, Denotes tree project path evaluated) :
    ∃ final, result = .ok final := by
  induction evaluates with
  | done => exact ⟨_, rfl⟩
  | @fail path rest _ _ _ found fails =>
    obtain ⟨evaluated, denotes⟩ := meaningful path List.mem_cons_self
    rw [(ready.evaluateModule_eq_ok_iff found evaluated).mpr denotes] at fails
    cases fails
  | next found evaluates _ ih =>
    exact ih (ready.next ((ready.evaluateModule_eq_ok_iff found _).mp evaluates))
      fun other mem => meaningful other (List.mem_cons_of_mem _ mem)

/-! ## A whole evaluation -/

/-- No module that imports lead to leads back to itself. -/
def Acyclic (tree : FileTree) (entry : String) : Prop :=
  ∀ path, ReflTransGen (Imports tree) entry path → ¬ TransGen (Imports tree) path path

/-- Without circles a module stands behind all that it links to. A module that stood before one it
links to could be reached back from that one, and so would be on a circle. -/
theorem Reads.ready (project : String) (reads : Reads tree [entry] [] (.ok sources))
    (acyclic : Acyclic tree entry) :
    Ready tree project sources (evaluationOrder sources entry) [] where
  read := fun _ _ => reads.readSource_of_get?
  denoted := fun _ mem => absurd mem List.not_mem_nil
  linked := by
    intro before path after cut target mem
    obtain ⟨closed, listed⟩ := reads.isClosed
    refine (behind_evaluationOrder closed listed before path after cut target mem).resolve_right
      fun back => ?_
    have ordered : path ∈ evaluationOrder sources entry := by simp [cut]
    have reached := (reads.linked_iff path).mp
      (((nodup_evaluationOrder closed listed).2 path).mp ordered)
    obtain ⟨source, found, linked⟩ := Sources.mem_targets.mp mem
    exact acyclic path reached
      (.head' ⟨source, reads.readSource_of_get? found, linked⟩ (reads.reflTransGen_of_linked back))

/-- How an evaluation comes about: its modules are read, put in order and evaluated. A fault in one
of the three steps is a fault of the whole, and the CSS is that of the entry alone. -/
theorem evaluateFile_eq_ok_iff {compiled : Compiled} :
    evaluateFile tree entry project = .ok compiled ↔
      ∃ sources results, Sources.readAll tree [entry] [] = .ok sources ∧
        evaluateAll project sources (evaluationOrder sources entry) [] = .ok results ∧
        compiled =
          { css := ((results.get? entry).map Evaluated.css).getD ""
            loaded := (evaluationOrder sources entry).filter (· != entry) } := by
  unfold evaluateFile
  cases read : Sources.readAll tree [entry] [] with
  | error fault => simp [bind, Except.bind]
  | ok sources =>
    cases evaluated : evaluateAll project sources (evaluationOrder sources entry) [] with
    | error fault => simp [bind, Except.bind, evaluated]
    | ok results => simp [bind, Except.bind, evaluated, pure, Except.pure, eq_comm]

/-- What is reported as loaded is all that imports lead to, but for the entry. -/
theorem mem_loaded_iff {compiled : Compiled}
    (evaluates : evaluateFile tree entry project = .ok compiled) {path : String} :
    path ∈ compiled.loaded ↔ ReflTransGen (Imports tree) entry path ∧ path ≠ entry := by
  obtain ⟨sources, results, read, -, rfl⟩ := evaluateFile_eq_ok_iff.mp evaluates
  have reads := reads_readAll tree entry
  rw [read] at reads
  obtain ⟨closed, listed⟩ := reads.isClosed
  rw [List.mem_filter, (nodup_evaluationOrder closed listed).2, reads.linked_iff, bne_iff_ne]

/-- What is reported as loaded is the order without the entry at its end. The entry is put in order
last, and no module twice. -/
theorem evaluationOrder_eq_loaded {compiled : Compiled}
    (reads : Reads tree [entry] [] (.ok sources))
    (loaded : compiled.loaded = (evaluationOrder sources entry).filter (· != entry)) :
    evaluationOrder sources entry = compiled.loaded ++ [entry] := by
  obtain ⟨closed, listed⟩ := reads.isClosed
  obtain ⟨front, cut⟩ := List.getLast?_eq_some_iff.mp (getLast?_evaluationOrder sources entry)
  have nodup := (nodup_evaluationOrder closed listed).1
  rw [cut, List.nodup_append] at nodup
  have kept : front.filter (· != entry) = front := by
    refine List.filter_eq_self.mpr fun path mem => ?_
    simpa using nodup.2.2 path mem entry (List.mem_singleton_self _)
  rw [loaded, cut, List.filter_append, kept]
  simp

/-- All that is put in order was read. -/
theorem Reads.mem_paths (reads : Reads tree [entry] [] (.ok sources)) {path : String}
    (mem : path ∈ evaluationOrder sources entry) : path ∈ sources.paths := by
  obtain ⟨closed, listed⟩ := reads.isClosed
  cases ((nodup_evaluationOrder closed listed).2 path).mp mem with
  | entry => exact listed
  | step _ found mem => exact closed _ _ found _ mem

/-- Without circles a pass that goes through has evaluated the entry to what it denotes. The entry
is the last of the order, so its result is there when the pass is done. -/
theorem Reads.exists_denotes (reads : Reads tree [entry] [] (.ok sources))
    (acyclic : Acyclic tree entry) {results : Results}
    (evaluates : evaluateAll project sources (evaluationOrder sources entry) [] = .ok results) :
    ∃ evaluated, results.get? entry = some evaluated ∧ Denotes tree project entry evaluated := by
  have pass : Evaluates project sources _ [] _ :=
    evaluates_evaluateAll (fun path mem => reads.mem_paths mem) []
  rw [evaluates] at pass
  have listed : entry ∈ results.map Prod.fst := by
    rw [pass.paths]
    exact List.mem_of_getLast? (getLast?_evaluationOrder sources entry)
  obtain ⟨evaluated, stored, mem⟩ := Results.exists_get? listed
  have ready := reads.ready project acyclic
  rw [← List.append_nil (evaluationOrder sources entry)] at ready
  exact ⟨evaluated, stored, (pass.ready ready).denoted _ mem⟩

/-- Without circles an evaluation goes through just when its module denotes something. An evaluation
stops at the first module that fails, and a denotation needs every module that is reached, so the
one is missing exactly when the other is. -/
theorem exists_evaluateFile_iff (acyclic : Acyclic tree entry) :
    (∃ compiled, evaluateFile tree entry project = .ok compiled) ↔
      ∃ evaluated, Denotes tree project entry evaluated := by
  have reads := reads_readAll tree entry
  constructor
  · rintro ⟨compiled, evaluates⟩
    obtain ⟨sources, results, read, pass, -⟩ := evaluateFile_eq_ok_iff.mp evaluates
    rw [read] at reads
    obtain ⟨evaluated, -, denotes⟩ := reads.exists_denotes acyclic pass
    exact ⟨evaluated, denotes⟩
  · rintro ⟨evaluated, denotes⟩
    cases read : Sources.readAll tree [entry] [] with
    | error fault =>
      rw [read] at reads
      obtain ⟨path, reached, fails⟩ := @Reads.exists_fault tree entry _ _ _ reads
        fun path mem => List.mem_singleton.mp mem ▸ .refl
      obtain ⟨other, denotesOther⟩ := denotes.reached reached
      obtain ⟨source, succeeds⟩ := denotesOther.exists_source
      rw [succeeds] at fails
      cases fails
    | ok sources =>
      rw [read] at reads
      obtain ⟨closed, listed⟩ := reads.isClosed
      obtain ⟨results, pass⟩ := (evaluates_evaluateAll (fun path mem => reads.mem_paths mem)
        []).exists_ok (reads.ready project acyclic) fun path mem => denotes.reached
          ((reads.linked_iff path).mp (((nodup_evaluationOrder closed listed).2 path).mp mem))
      exact ⟨_, evaluateFile_eq_ok_iff.mpr ⟨sources, results, read, pass, rfl⟩⟩

/-- **An evaluation in one pass is the recursive one.** Reading ends. What is read is put in order:
the modules that imports lead to, each once, and the entry last; in that order they are evaluated,
one after the other. Without circles this goes through just when the entry denotes something. Then
the style sheet is the one denoted, the other modules are reported as loaded, each behind those that
it imports, and every import is bound to the exports that its module denotes. -/
theorem evaluateFile_denotes (tree : FileTree) (entry project : String) :
    Reads tree [entry] [] (Sources.readAll tree [entry] []) ∧
      (∀ sources, Sources.readAll tree [entry] [] = .ok sources →
        let order := evaluationOrder sources entry
        order.Nodup ∧ order.getLast? = some entry ∧
          (∀ path, path ∈ order ↔ ReflTransGen (Imports tree) entry path) ∧
          Evaluates project sources order [] (evaluateAll project sources order [])) ∧
      (Acyclic tree entry →
        ((∃ compiled, evaluateFile tree entry project = .ok compiled) ↔
          ∃ evaluated, Denotes tree project entry evaluated) ∧
        ∀ compiled, evaluateFile tree entry project = .ok compiled →
          (∃ evaluated, Denotes tree project entry evaluated ∧ compiled.css = evaluated.css) ∧
          ∃ sources, Sources.readAll tree [entry] [] = .ok sources ∧
            evaluationOrder sources entry = compiled.loaded ++ [entry] ∧
            ∀ before path after, compiled.loaded ++ [entry] = before ++ path :: after →
              (∀ target, Imports tree path target → target ∈ before) ∧
              ∃ source results, readSource tree path = .ok source ∧
                evaluateAll project sources before [] = .ok results ∧
                ∀ link ∈ source.links, ∃ other, Denotes tree project link.2 other ∧
                  (environment results source.links).exports? link.1 = some other.exports) := by
  have reads := reads_readAll tree entry
  refine ⟨reads, fun sources read => ?_, fun acyclic =>
    ⟨exists_evaluateFile_iff acyclic, fun compiled evaluates => ?_⟩⟩
  · rw [read] at reads
    obtain ⟨closed, listed⟩ := reads.isClosed
    obtain ⟨nodup, members⟩ := nodup_evaluationOrder closed listed
    exact ⟨nodup, getLast?_evaluationOrder sources entry,
      fun path => (members path).trans (reads.linked_iff path),
      evaluates_evaluateAll (fun path mem => reads.mem_paths mem) []⟩
  · obtain ⟨sources, results, read, pass, whole⟩ := evaluateFile_eq_ok_iff.mp evaluates
    rw [read] at reads
    obtain ⟨evaluated, stored, denotes⟩ := reads.exists_denotes acyclic pass
    have order := evaluationOrder_eq_loaded reads (congrArg Compiled.loaded whole)
    refine ⟨⟨evaluated, denotes, by simp [whole, stored]⟩, sources, read, order,
      fun before path after cut => ?_⟩
    -- what comes before a module has been evaluated when its turn comes
    have listed : ∀ other ∈ before ++ path :: after, other ∈ sources.paths := by
      rw [← cut, ← order]
      exact fun other mem => reads.mem_paths mem
    have ready := reads.ready project acyclic
    rw [order, cut] at ready pass
    obtain ⟨middle, part⟩ := exists_of_evaluateAll_append pass
    obtain ⟨source, found⟩ := Option.isSome_iff_exists.mp
      (Sources.isSome_get?_iff.mpr (listed path (by simp)))
    have here := reads.readSource_of_get? found
    refine ⟨fun target imports => ?_, source, middle, here, part, fun link mem => ?_⟩
    · obtain ⟨again, readAgain, mem⟩ := imports
      rw [here] at readAgain
      cases readAgain
      exact ready.linked before path after rfl target
        (Sources.mem_targets.mpr ⟨source, found, mem⟩)
    · have reached : Evaluates project sources before [] (.ok middle) := part ▸
        evaluates_evaluateAll (fun other mem => listed other (List.mem_append_left _ mem)) []
      obtain ⟨imported, stored⟩ := (reached.ready ready).exists_imported found
      exact ⟨imported link.2, (stored link.2 (List.mem_map_of_mem mem)).2,
        (exports?_environment here fun target mem => (stored target mem).1).2 link mem⟩

/-- Two modules that share an import, and one that imports both. -/
def diamond : FileTree where
  files :=
    [(["a.css.ts"], .text
        "import {b} from './b.css';import {c} from './c.css';globalStyle(b, { color: c });"),
      (["b.css.ts"], .text "import {d} from './d.css';export const b = d;"),
      (["c.css.ts"], .text "import {d} from './d.css';export const c = 'red';"),
      (["d.css.ts"], .text "export const d = 'html';")]

/-- The modules of the diamond, in the order in which they are read. -/
def diamondSources : Sources :=
  [("/a.css.ts",
      ⟨"import {b} from './b.css';import {c} from './c.css';globalStyle(b, { color: c });",
        [("./b.css", "/b.css.ts"), ("./c.css", "/c.css.ts")]⟩),
    ("/c.css.ts",
      ⟨"import {d} from './d.css';export const c = 'red';", [("./d.css", "/d.css.ts")]⟩),
    ("/d.css.ts", ⟨"export const d = 'html';", []⟩),
    ("/b.css.ts", ⟨"import {d} from './d.css';export const b = d;", [("./d.css", "/d.css.ts")]⟩)]

/-- The sources of the tree, as they are read. -/
private theorem readSource_diamond :
    ∀ entry ∈ diamondSources, readSource diamond entry.1 = .ok entry.2 := by
  decide +kernel

/-- All of them are found from the entry. -/
private theorem readAll_diamond :
    Sources.readAll diamond ["/a.css.ts"] [] = .ok diamondSources := by
  have read := readSource_diamond
  simp only [diamondSources, List.forall_mem_cons] at read
  obtain ⟨a, c, d, b, -⟩ := read
  refine (Reads.next List.not_mem_nil a ?_).readAll_eq
  refine .next (by decide) c (.next (by decide) d (.next (by decide) b ?_))
  exact .again (by decide) .done

/-- Imports lead down in the diamond. The order of the names in the list does it: each module
imports later ones only. -/
private theorem acyclic_diamond : Acyclic diamond "/a.css.ts" := by
  let height : String → Nat := fun path =>
    (["/d.css.ts", "/c.css.ts", "/b.css.ts", "/a.css.ts"] : List String).idxOf path
  have lower : ∀ entry ∈ diamondSources, ∀ target ∈ entry.2.targets,
      target ∈ diamondSources.paths ∧ height target < height entry.1 := by decide
  have step : ∀ path ∈ diamondSources.paths, ∀ target, Imports diamond path target →
      target ∈ diamondSources.paths ∧ height target < height path := by
    rintro path mem target ⟨source, read, linked⟩
    obtain ⟨entry, listed, rfl⟩ := List.mem_map.mp mem
    rw [readSource_diamond entry listed] at read
    cases read
    exact lower entry listed target linked
  have descends : ∀ path ∈ diamondSources.paths, ∀ target, TransGen (Imports diamond) path target →
      target ∈ diamondSources.paths ∧ height target < height path := by
    intro path mem target chain
    induction chain with
    | single imports => exact step path mem _ imports
    | tail _ imports ih =>
      obtain ⟨mem, near⟩ := step _ ih.1 _ imports
      exact ⟨mem, near.trans ih.2⟩
  have listed : ∀ path, ReflTransGen (Imports diamond) "/a.css.ts" path →
      path ∈ diamondSources.paths := by
    intro path reached
    induction reached with
    | refl => decide
    | tail _ imports ih => exact (step _ ih _ imports).1
  intro path reached circle
  exact Nat.lt_irrefl _ (descends path (listed path reached) path circle).2

/-- What the tree evaluates to. -/
private theorem evaluateFile_diamond : evaluateFile diamond "/a.css.ts" "/" =
    .ok ⟨"html \x7b\n  color: red;\n\x7d\n", ["/d.css.ts", "/b.css.ts", "/c.css.ts"]⟩ := by
  unfold evaluateFile
  rw [readAll_diamond]
  decide +kernel

/-- Four modules, one of which is imported along two ways and evaluated once. -/
theorem evaluateFile_denotes_diamond :
    (∀ path, path ∈ ["/d.css.ts", "/b.css.ts", "/c.css.ts", "/a.css.ts"] ↔
      ReflTransGen (Imports diamond) "/a.css.ts" path) ∧
      ∃ evaluated, Denotes diamond "/" "/a.css.ts" evaluated ∧
        "html \x7b\n  color: red;\n\x7d\n" = evaluated.css := by
  obtain ⟨_, ordered, agrees⟩ := evaluateFile_denotes diamond "/a.css.ts" "/"
  have members := (ordered _ readAll_diamond).2.2.1
  have order : evaluationOrder diamondSources "/a.css.ts" =
      ["/d.css.ts", "/b.css.ts", "/c.css.ts", "/a.css.ts"] := by decide
  rw [order] at members
  exact ⟨members, ((agrees acyclic_diamond).2 _ evaluateFile_diamond).1⟩

end StyleGraph.Static
