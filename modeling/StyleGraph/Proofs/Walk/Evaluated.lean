import StyleGraph.Extract.Basic
import StyleGraph.Proofs.Static.Denotation
import StyleGraph.Proofs.Static.Resolution
import StyleGraph.Proofs.Walk.Reach

/-!
# Evaluated modules and visited files

A CSS-in-TS module that a walk comes to is evaluated with the modules that it imports. These supply
names, and the CSS behind the names is added only if the walk comes to them too.

`walkFrom_visits_evaluated` follows a walk that succeeds from a module on. As long as no other file
shadows the modules that are imported, the walk comes to all that is evaluated, and adds the CSS of
what is accepted. Where a link is shadowed the walk takes it for another file.
`evaluated_not_visited` is a sheet that uses a name whose CSS is missing for that reason.
-/

set_option autoImplicit false

namespace StyleGraph.Walk

open Relation (ReflTransGen)
open Static (Shadowed baseOf readSource)

variable {tree : FileTree} {commands : Compile.Commands} {options : ExtractOptions}
  {entry : String}

/-- A module imports another one, by a specifier without a query, and no other file shadows it. -/
def Links (tree : FileTree) (importer target : String) : Prop :=
  ∃ source specifier, readSource tree importer = .ok source ∧
    (specifier, target) ∈ source.links ∧ '?' ∉ specifier.toList ∧
    ¬ Shadowed tree (baseOf importer specifier) target

/-- What a specifier of a module is evaluated as is a CSS-in-TS module to the walk as well. Both go
by the name of the file. -/
theorem kind_of_resolve? {importer specifier target : String}
    (resolved : Static.resolve? tree importer specifier = some target) :
    Kind.ofPath target = .style .vanilla := by
  obtain ⟨-, -, -, found⟩ := Static.exists_placed_of_resolve? resolved
  have isModule := (List.mem_filter.mp (List.mem_of_find?_eq_some found)).2
  unfold Static.isModulePath at isModule
  cases name : Path.fileName? target with
  | none =>
    rw [name] at isModule
    cases isModule
  | some text =>
    rw [name, Option.any_some] at isModule
    have dialect : Dialect.ofPath? target = some .vanilla := by
      simp only [Dialect.ofPath?, name, Option.bind_eq_bind, Option.bind_some, isModule, if_true]
    simp only [Kind.ofPath, dialect]

/-- A module is found also where a sheet stands beside it. -/
example :
    let beside : FileTree := { files := [(["b.css"], .text ""), (["b.css.ts"], .text "")] }
    Static.resolve? beside "/a.css.ts" "./b.css" = some "/b.css.ts" ∧
      Kind.ofPath "/b.css.ts" = .style .vanilla := by
  decide +kernel

/-- **A link is walked just when it is not shadowed**, in a project whose specifiers are resolved in
its files, with the extensions that are tried when none are given. -/
theorem resolve_link_iff (builtin : options.resolve = none) (defaults : options.extensions = [])
    {importer : String} {source : Static.Source} (read : readSource tree importer = .ok source)
    {link : String × String} (mem : link ∈ source.links) (plain : '?' ∉ link.1.toList) :
    (Extract.project tree commands options).resolve link.1 importer = .found link.2 ↔
      ¬ Shadowed tree (baseOf importer link.1) link.2 := by
  have file := FileTree.isFile_of_readText (Static.exists_of_readSource read).1
  have effective : Resolve.effectiveExtensions options.extensions = Resolve.defaultExtensions := by
    rw [defaults]
    rfl
  have resolver : (Extract.project tree commands options).resolve link.1 importer =
      (Resolve.Resolver.ofOptions tree options.extensions options.aliases options.cwd).resolve
        link.1 importer options.cwd := by
    simp only [Extract.project, builtin, Option.getD_none]
  rw [resolver]
  exact Static.resolve_eq_found_iff effective file plain (Static.resolve?_of_mem_links read mem)

/-- One step from a module that is reached: a link that is not shadowed. The walk resolves the
specifier to the same file, since nothing comes before that. -/
theorem Reaches.link (builtin : options.resolve = none) (defaults : options.extensions = [])
    {importer target : String}
    (reaches : Reaches (Extract.project tree commands options) entry importer)
    (kind : Kind.ofPath importer = .style .vanilla) (links : Links tree importer target) :
    Reaches (Extract.project tree commands options) entry target ∧
      Kind.ofPath target = .style .vanilla := by
  obtain ⟨source, specifier, read, mem, plain, unshadowed⟩ := links
  obtain ⟨text, specifiers, scanned, listed⟩ := Static.exists_of_readSource read
  obtain ⟨isListed, resolved⟩ := (listed _).mp mem
  have found := (@resolve_link_iff tree commands options builtin defaults _ _ read _ mem plain).mpr
    unshadowed
  exact ⟨reaches.step (.inl kind) ⟨source.text, specifiers, specifier, target, text, scanned,
    isListed, found, (Static.clean_of_resolve? resolved).2.symm⟩, kind_of_resolve? resolved⟩

/-- Every module that is reached by links from a module that is reached. -/
theorem Reaches.links (builtin : options.resolve = none) (defaults : options.extensions = [])
    {path target : String} (reaches : Reaches (Extract.project tree commands options) entry path)
    (kind : Kind.ofPath path = .style .vanilla) (links : ReflTransGen (Links tree) path target) :
    Reaches (Extract.project tree commands options) entry target ∧
      Kind.ofPath target = .style .vanilla := by
  induction links with
  | refl => exact ⟨reaches, kind⟩
  | tail _ link ih => exact ih.1.link builtin defaults ih.2 link

/-- **What is evaluated is visited, as long as nothing shadows it.** In a walk that succeeds a link
of a CSS-in-TS module is walked just when it is not shadowed. So the walk comes to every module that
such links lead to, and adds its CSS if it is accepted. When all links are such, these are the
modules that the evaluation of the module reports as loaded. -/
theorem walkFrom_visits_evaluated (tree : FileTree) (commands : Compile.Commands)
    (options : ExtractOptions) (entry : String) (events : List Event)
    (builtin : options.resolve = none) (defaults : options.extensions = []) :
    let project := Extract.project tree commands options
    let walk := walkFrom project entry { events }
    walk.fault = none → ∀ path ∈ walk.state.visited, Kind.ofPath path = .style .vanilla →
      (∀ source, readSource tree path = .ok source → ∀ link ∈ source.links,
        '?' ∉ link.1.toList →
          (project.resolve link.1 path = .found link.2 ↔
            ¬ Shadowed tree (baseOf path link.1) link.2)) ∧
      (∀ target, ReflTransGen (Links tree) path target →
        target ∈ walk.state.visited ∧
          (options.accepts target = true → target ∈ walk.state.compiled.map Prod.fst)) ∧
      ∀ compiled, Static.evaluateFile tree path options.cwd = .ok compiled →
        (∀ importer target, ReflTransGen (Static.Imports tree) path importer →
          Static.Imports tree importer target → Links tree importer target) →
        ∀ target ∈ compiled.loaded, target ∈ walk.state.visited ∧
          (options.accepts target = true → target ∈ walk.state.compiled.map Prod.fst) := by
  intro project walk succeeds path mem kind
  have visit := visit_walkFrom project entry { events }
  have visited := visit.mem_visited_iff succeeds
  have compiled := (visit.mem_compiled_iff succeeds).1
  -- what the walk resolves to modules it follows, whatever the evaluation made of it
  have linked : ∀ target, ReflTransGen (Links tree) path target →
      target ∈ walk.state.visited ∧
        (options.accepts target = true → target ∈ walk.state.compiled.map Prod.fst) := by
    intro target links
    obtain ⟨reaches, isModule⟩ := ((visited path).mp mem).links builtin defaults kind links
    exact ⟨(visited target).mpr reaches, fun accepted =>
      (compiled target).mpr ⟨reaches, ⟨.vanilla, isModule⟩, accepted⟩⟩
  refine ⟨fun source read link listed plain =>
      resolve_link_iff builtin defaults read listed plain, linked,
    fun sheet evaluates clear target loaded => linked target ?_⟩
  have reached := ((Static.mem_loaded_iff evaluates).mp loaded).1
  clear loaded
  -- along the imports of the evaluation, each of which is a link of the walk by `clear`
  induction reached with
  | refl => exact .refl
  | tail chain imports ih => exact ih.tail (clear _ _ chain imports)

/-- A module that uses a name of another one, which adds CSS of its own, and what stands beside
them. -/
def themed (beside : List (List String × Content)) : FileTree where
  files :=
    (["a.css.ts"], .text "import { b } from './b.css';globalStyle('html', { color: b });") ::
      (["b.css.ts"], .text "export const b = 'red';globalStyle('p', { margin: 0 });") :: beside

/-- The project of such a tree. -/
def themedProject (beside : List (List String × Content)) : Project :=
  Extract.project (themed beside) (fun _ => none) { cwd := "/" }

/-- The two modules as they are read. -/
private def themedSources : Static.Sources :=
  [("/a.css.ts", ⟨"import { b } from './b.css';globalStyle('html', { color: b });",
      [("./b.css", "/b.css.ts")]⟩),
    ("/b.css.ts", ⟨"export const b = 'red';globalStyle('p', { margin: 0 });", []⟩)]

/-- The imports that the two texts have, whatever stands beside them. -/
private theorem importedSources_themed : ∀ entry ∈ themedSources,
    Script.importedSources? entry.2.text entry.1 = some (entry.2.links.map Prod.fst) := by
  decide +kernel

/-- The sources of the tree are read as they stand, with whatever lies beside them. -/
private theorem readSource_themed {beside : List (List String × Content)}
    (stands : ∀ entry ∈ themedSources,
      (themed beside).readText entry.1 = .ok entry.2.text ∧
        (entry.2.links.map Prod.fst).filterMap (fun specifier =>
          (Static.resolve? (themed beside) entry.1 specifier).map fun target =>
            (specifier, target)) = entry.2.links) :
    ∀ entry ∈ themedSources, readSource (themed beside) entry.1 = .ok entry.2 := by
  intro entry mem
  obtain ⟨text, links⟩ := stands entry mem
  simp only [readSource, text, importedSources_themed entry mem, links]

/-- Nothing stands beside the two modules. -/
private theorem readSource_themed_nil : ∀ entry ∈ themedSources,
    readSource (themed []) entry.1 = .ok entry.2 :=
  readSource_themed (by decide)

/-- Whatever stands beside the two modules, the one is evaluated with the other. -/
private theorem evaluateFile_themed {beside : List (List String × Content)}
    (read : ∀ entry ∈ themedSources, readSource (themed beside) entry.1 = .ok entry.2) :
    Static.evaluateFile (themed beside) "/a.css.ts" "/" =
      .ok ⟨"html \x7b\n  color: red;\n\x7d\n", ["/b.css.ts"]⟩ ∧
    Static.evaluateFile (themed beside) "/b.css.ts" "/" =
      .ok ⟨"p \x7b\n  margin: 0;\n\x7d\n", []⟩ := by
  simp only [themedSources, List.forall_mem_cons] at read
  obtain ⟨importing, imported, -⟩ := read
  have both : Static.Sources.readAll (themed beside) ["/a.css.ts"] [] = .ok themedSources :=
    (Static.Reads.next List.not_mem_nil importing
      (.next (by decide) imported .done)).readAll_eq
  have alone : Static.Sources.readAll (themed beside) ["/b.css.ts"] [] =
      .ok (themedSources.drop 1) :=
    (Static.Reads.next List.not_mem_nil imported .done).readAll_eq
  constructor
  · unfold Static.evaluateFile
    rw [both]
    decide +kernel
  · unfold Static.evaluateFile
    rw [alone]
    decide +kernel

/-- What compiling the two modules gives. -/
private theorem compile_themed {beside : List (List String × Content)}
    (read : ∀ entry ∈ themedSources, readSource (themed beside) entry.1 = .ok entry.2) :
    (themedProject beside).compile .vanilla "/a.css.ts" =
      { result := .ok { css := "html \x7b\n  color: red;\n\x7d\n", loaded := ["/b.css.ts"] } } ∧
    (themedProject beside).compile .vanilla "/b.css.ts" =
      { result := .ok { css := "p \x7b\n  margin: 0;\n\x7d\n", loaded := [] } } := by
  obtain ⟨both, alone⟩ := evaluateFile_themed read
  simp only [themedProject, Extract.project, Compile.Workspace.compile, both, alone, and_self]

/-- With nothing beside the two modules the walk comes to both. It is evaluated step by step, since
the whole run is too large for one evaluation. -/
private theorem walkFrom_themed : walkFrom (themedProject []) "/a.css.ts" {} =
    { state :=
        { visited := ["/b.css.ts", "/a.css.ts"]
          files := ["/a.css.ts", "/b.css.ts"]
          compiled :=
            [("/b.css.ts", "p \x7b\n  margin: 0;\n\x7d\n"),
              ("/a.css.ts", "html \x7b\n  color: red;\n\x7d\n")]
          events := [.resolved "./b.css" "/a.css.ts"] } } := by
  obtain ⟨compiles, compilesOther⟩ := compile_themed readSource_themed_nil
  have first : turn (themedProject []) "/a.css.ts" (.visit "/a.css.ts") {} =
      ([.visit "/b.css.ts", .emit "/a.css.ts"],
        { state :=
            { visited := ["/a.css.ts"], files := ["/a.css.ts"]
              events := [.resolved "./b.css" "/a.css.ts"] } }) := by
    decide +kernel
  have second : turn (themedProject []) "/a.css.ts" (.visit "/b.css.ts")
      { visited := ["/a.css.ts"], files := ["/a.css.ts"]
        events := [.resolved "./b.css" "/a.css.ts"] } =
      ([.emit "/b.css.ts"],
        { state :=
            { visited := ["/b.css.ts", "/a.css.ts"], files := ["/a.css.ts", "/b.css.ts"]
              events := [.resolved "./b.css" "/a.css.ts"] } }) := by
    decide +kernel
  refine (ends_cons first (.inr ⟨rfl, ends_cons second (.inr ⟨rfl, ?_⟩)⟩)).run_eq
  refine ends_cons rfl (.inr ?_)
  simp only [contribute, compilesOther]
  refine ⟨rfl, ends_cons rfl (.inr ?_)⟩
  simp only [contribute, compiles]
  exact ⟨rfl, .done⟩

/-- The imports of the two modules stay among them, and nothing shadows them. -/
private theorem links_themed {importer target : String} (mem : importer ∈ themedSources.paths)
    (imports : Static.Imports (themed []) importer target) :
    target ∈ themedSources.paths ∧ Links (themed []) importer target := by
  have inside : ∀ entry ∈ themedSources, ∀ link ∈ entry.2.links,
      link.2 ∈ themedSources.paths ∧ '?' ∉ link.1.toList ∧
        Path.extension? (baseOf entry.1 link.1) = some "css" ∧
        (themed []).isFile (baseOf entry.1 link.1) = false ∧
        Resolve.aliasesOf? Resolve.extensionAliases (baseOf entry.1 link.1) = none := by
    decide
  obtain ⟨entry, listed, rfl⟩ := List.mem_map.mp mem
  obtain ⟨source, readAgain, isTarget⟩ := imports
  rw [readSource_themed_nil entry listed] at readAgain
  cases readAgain
  obtain ⟨⟨specifier, other⟩, linked, rfl⟩ := List.mem_map.mp isTarget
  obtain ⟨among, plain, -, missing, unaliased⟩ := inside entry listed _ linked
  refine ⟨among, entry.2, specifier, readSource_themed_nil entry listed, linked, plain, ?_⟩
  rintro (⟨-, file⟩ | ⟨stem, replacements, aliased, -⟩)
  · rw [missing] at file
    cases file
  · rw [unaliased] at aliased
    cases aliased

/-- The statement at that tree, with no file in the way: what is evaluated is visited and compiled.
-/
theorem walkFrom_visits_evaluated_themed :
    "/b.css.ts" ∈ (walkFrom (themedProject []) "/a.css.ts" {}).state.visited ∧
      "/b.css.ts" ∈ (walkFrom (themedProject []) "/a.css.ts" {}).state.compiled.map Prod.fst := by
  obtain ⟨evaluated, -⟩ := evaluateFile_themed readSource_themed_nil
  have succeeds : (walkFrom (themedProject []) "/a.css.ts" {}).fault = none := by
    rw [walkFrom_themed]
  have visited : "/a.css.ts" ∈ (walkFrom (themedProject []) "/a.css.ts" {}).state.visited := by
    rw [walkFrom_themed]
    decide
  have among : ∀ importer, ReflTransGen (Static.Imports (themed [])) "/a.css.ts" importer →
      importer ∈ themedSources.paths := by
    intro importer reached
    induction reached with
    | refl => decide
    | tail _ imports ih => exact (links_themed ih imports).1
  have loaded := (walkFrom_visits_evaluated (themed []) (fun _ => none) { cwd := "/" } "/a.css.ts"
    [] rfl rfl succeeds "/a.css.ts" visited rfl).2.2 _ evaluated
    (fun importer target reached imports => (links_themed (among importer reached) imports).2)
    "/b.css.ts" (by decide)
  exact ⟨loaded.1, loaded.2 rfl⟩

/-- **A name is used without the CSS behind it**: beside the module stands a sheet, and that is what
the walk takes the import for. -/
theorem evaluated_not_visited :
    let project := themedProject [(["b.css"], .text "")]
    let walk := walkFrom project "/a.css.ts" {}
    walk.fault = none ∧ "/a.css.ts" ∈ walk.state.visited ∧
      Static.evaluateFile project.tree "/a.css.ts" "/" =
        .ok ⟨"html \x7b\n  color: red;\n\x7d\n", ["/b.css.ts"]⟩ ∧
      Static.evaluateFile project.tree "/b.css.ts" "/" = .ok ⟨"p \x7b\n  margin: 0;\n\x7d\n", []⟩ ∧
      "/b.css.ts" ∉ walk.state.visited ∧
      Extract.joined walk.state = "html \x7b\n  color: red;\n\x7d\n" := by
  intro project walk
  have read : ∀ entry ∈ themedSources,
      readSource (themed [(["b.css"], .text "")]) entry.1 = .ok entry.2 :=
    readSource_themed (by decide +kernel)
  obtain ⟨both, alone⟩ := evaluateFile_themed read
  obtain ⟨compiles, -⟩ := compile_themed read
  have first : turn project "/a.css.ts" (.visit "/a.css.ts") {} =
      ([.visit "/b.css", .emit "/a.css.ts"],
        { state :=
            { visited := ["/a.css.ts"], files := ["/a.css.ts"]
              events := [.resolved "./b.css" "/a.css.ts"] } }) := by
    decide +kernel
  have second : turn project "/a.css.ts" (.visit "/b.css")
      { visited := ["/a.css.ts"], files := ["/a.css.ts"]
        events := [.resolved "./b.css" "/a.css.ts"] } =
      ([], { state :=
              { visited := ["/b.css", "/a.css.ts"], files := ["/a.css.ts", "/b.css"]
                compiled := [("/b.css", "")]
                events := [.resolved "./b.css" "/a.css.ts"] } }) := by
    decide +kernel
  have walked : walk =
      { state :=
          { visited := ["/b.css", "/a.css.ts"]
            files := ["/a.css.ts", "/b.css", "/b.css.ts"]
            compiled := [("/b.css", ""), ("/a.css.ts", "html \x7b\n  color: red;\n\x7d\n")]
            events := [.resolved "./b.css" "/a.css.ts"] } } := by
    refine (ends_cons first (.inr ⟨rfl, ends_cons second (.inr ⟨rfl, ?_⟩)⟩)).run_eq
    refine ends_cons rfl (.inr ?_)
    simp only [contribute, project, compiles]
    exact ⟨rfl, .done⟩
  rw [walked]
  exact ⟨rfl, by decide, both, alone, by decide, by decide +kernel⟩

end StyleGraph.Walk
