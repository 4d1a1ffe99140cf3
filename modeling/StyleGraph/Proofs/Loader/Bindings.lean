import StyleGraph.Proofs.Emit.Bindings
import StyleGraph.Proofs.Loader.Bridge

/-!
# The names that an answer binds

A combined request, and in bridge mode any request for a style, is answered with a module that is
made from scratch. Read off its source, the names at its top are those that belong to the kind of
answer and, among them, the name of the export with the styles (`topNames_load`).

The names of the answer itself are always fit to be declared together. The one that a request or the
options give need not be: it is checked on its own and not against the others, and the check knows
nothing of the two names that strict code does not bind. `load_declarable` says that nothing else
goes wrong; `not_isDeclarable_givenName` gives a request for each of the two ways.
-/

set_option autoImplicit false

namespace StyleGraph.Loader

variable (options : LoaderOptions) (resource : Resource)

/-- The answer is made from scratch. -/
def Synthesized : Prop :=
  resource.flags.combined = true ∨ options.mode = .bridge ∧ resource.isScript = false

instance : Decidable (Synthesized options resource) :=
  inferInstanceAs (Decidable (_ = true ∨ _ = _ ∧ _ = false))

/-- The names that an answer binds before that of the export with the styles. -/
def earlierNames : Route → List String
  | .standard => []
  | .combined => Emit.CombinedPlan.earlierNames
  | .bridgeScript =>
    Emit.bridgeNames (Script.styleModuleImports resource.source resource.path).length
  | .bridgeStyle => Emit.styleNames

/-- The names that an answer binds after that of the export with the styles. -/
def laterNames : Route → List String
  | .standard => []
  | .combined => Emit.furtherExports options.hasModules resource.flags.stableRequested
  | .bridgeScript => Emit.furtherExports true false
  | .bridgeStyle => Emit.furtherExports true resource.flags.stableRequested

/-- **The names of an answer itself can be declared together**, whatever the number of styles. -/
theorem isDeclarable_ownNames (route : Route) :
    Emit.IsDeclarable (earlierNames resource route ++ laterNames options resource route) := by
  cases route with
  | standard => exact Emit.isDeclarable_of_valid List.nodup_nil (by simp [earlierNames, laterNames])
  | combined => exact Emit.CombinedPlan.isDeclarable_names _ _
  | bridgeScript => exact Emit.isDeclarable_bridgeNames _
  | bridgeStyle => exact Emit.isDeclarable_styleNames _

variable {options resource}

/-- An answer that is made from scratch is of one of three kinds. In both modes a combined request
is one of them; the other two depend on whether the resource is a script. -/
theorem Synthesized.routes (synthesized : Synthesized options resource) :
    (options.mode = .standard ∧ resource.flags.combined = true ∧
      Route.ofResource options.mode resource = .combined) ∨
    (options.mode = .bridge ∧ resource.isScript = true ∧ resource.flags.combined = true ∧
      Route.ofResource options.mode resource = .bridgeScript) ∨
    (options.mode = .bridge ∧ resource.isScript = false ∧
      Route.ofResource options.mode resource = .bridgeStyle) := by
  unfold Route.ofResource
  cases mode : options.mode with
  | standard =>
    have combined : resource.flags.combined = true := by
      rcases synthesized with combined | ⟨bridge, _⟩
      · exact combined
      · rw [mode] at bridge
        cases bridge
    exact .inl ⟨rfl, combined, by rw [combined]⟩
  | bridge =>
    cases script : resource.isScript with
    | false => exact .inr (.inr ⟨rfl, rfl, rfl⟩)
    | true =>
      have combined : resource.flags.combined = true := by
        rcases synthesized with combined | ⟨_, style⟩
        · exact combined
        · rw [script] at style
          cases style
      exact .inr (.inl ⟨rfl, rfl, combined, by rw [combined]⟩)

/-! ## The three kinds of answers -/

section

variable {name : String} (valid : Emit.isIdentifier name = true)

include valid

/-- The combined module declares the name of the CSS once, after what it forwards and before what
the flags add. -/
theorem topNames_combinedModule :
    Emit.topNames ((combinedModule options resource name).render name) =
      earlierNames resource .combined ++ name :: laterNames options resource .combined := by
  obtain ⟨plan, planned, exported, modules, stable⟩ : ∃ plan : Emit.CombinedPlan,
      combinedModule options resource name = plan.toModule ∧ plan.exportName = name ∧
        plan.includeModules = options.hasModules ∧
        plan.includeStable = resource.flags.stableRequested :=
    ⟨_, rfl, rfl, rfl, rfl⟩
  rw [planned, Emit.topNames_render (plan.isLaid_toModule (by rw [exported, valid])),
    plan.binds_toModule, exported, modules, stable, earlierNames, laterNames]

/-- The same for the bridge of a script, which has the same three parts around that name. -/
theorem topNames_bridgeScriptModule :
    Emit.topNames ((bridgeScriptModule resource name).render name) =
      earlierNames resource .bridgeScript ++ name :: laterNames options resource .bridgeScript :=
  (Emit.topNames_render (Emit.isLaid_bridgeModule valid _ _ _) name).trans
    (Emit.binds_bridgeModule _ _ _ _)

/-- The object of stable classes is in the answer when the request is about them. It is the last of
the names, since it is written behind the CSS and the class map. -/
theorem topNames_bridgeStyleModule (css : String) (map : Stable.StableMap)
    (kind : Stable.ScriptKind) :
    Emit.topNames ((Emit.bridgeStyleModule (proxyRequest resource) name css
        (if resource.flags.stableRequested then some (Stable.literalText map kind)
          else none)).render name) =
      earlierNames resource .bridgeStyle ++ name :: laterNames options resource .bridgeStyle := by
  have laid : ∀ text ∈ (if resource.flags.stableRequested then
      some (Stable.literalText map kind) else none), Emit.isBlock text.toList = true := by
    intro text given
    obtain ⟨_, same⟩ := Option.mem_ite_none_right.mp given
    rw [← Option.mem_some.mp same]
    exact Emit.isBlock_literalText map kind
  rw [Emit.topNames_render (Emit.isLaid_bridgeStyleModule valid _ _ laid),
    Emit.binds_bridgeStyleModule]
  show _ = Emit.styleNames ++ name :: Emit.furtherExports true resource.flags.stableRequested
  cases resource.flags.stableRequested with
  | false => rfl
  | true =>
    have declared : [Stable.literalText map kind].flatMap Emit.topNames = [Emit.stableExport] := by
      rw [List.flatMap_singleton, Emit.topNames_literalText]
    show _ ++ name :: Emit.modulesExport :: [Stable.literalText map kind].flatMap Emit.topNames = _
    rw [declared]
    rfl

end

/-! ## Loading -/

variable (tree : FileTree) (commands : Compile.Commands)

/-- **The names at the top of an answer** that is made from scratch. The three kinds of answers have
their names in one order: what is imported or forwarded, the CSS, and what the flags add. -/
theorem topNames_load (synthesized : Synthesized options resource) {text : String}
    (loaded : (load tree commands options resource).result = .ok text) :
    Emit.topNames text =
      earlierNames resource (Route.ofResource options.mode resource) ++
        options.exportNameFor resource.flags ::
          laterNames options resource (Route.ofResource options.mode resource) := by
  have valid := options.isIdentifier_exportNameFor resource.flags
  have absolute : Path.isAbsolute resource.path = true := by
    by_contra relative
    rw [load, if_neg relative] at loaded
    cases loaded
  rcases synthesized.routes with ⟨standard, combined, routed⟩ |
    ⟨bridge, script, combined, routed⟩ | ⟨bridge, style, routed⟩
  · rw [result_load_combined options tree commands standard combined absolute] at loaded
    rw [← Except.ok.inj loaded, routed]
    exact topNames_combinedModule valid
  · rw [result_load_bridgeScript tree commands bridge script combined absolute] at loaded
    rw [← Except.ok.inj loaded, routed]
    exact topNames_bridgeScriptModule valid
  · have answered := result_load_bridgeStyle tree commands bridge style absolute
    rw [loaded] at answered
    rw [routed]
    cases extracted :
        (Extract.run tree commands (options.extractionFor resource.flags) resource.path).result with
    | error fault =>
      rw [extracted] at answered
      cases answered
    | ok sheet =>
      rw [extracted] at answered
      rw [Except.ok.inj answered]
      exact topNames_bridgeStyleModule valid sheet.css
        (Stable.stableMap sheet.css (options.spaceFor resource.flags)) .plain

/-- An absolute path is answered, unless the styles themselves have to be extracted and are not. The
ways that lead to a synthesized module are gone through one by one; only the last of them extracts.
-/
theorem exists_load_iff (synthesized : Synthesized options resource) :
    (∃ text, (load tree commands options resource).result = .ok text) ↔
      Path.isAbsolute resource.path = true ∧
        (options.mode = .bridge → resource.isScript = false →
          ∃ sheet, (Extract.run tree commands (options.extractionFor resource.flags)
            resource.path).result = .ok sheet) := by
  by_cases absolute : Path.isAbsolute resource.path = true
  case neg =>
    rw [load, if_neg absolute]
    simp [absolute]
  rw [and_iff_right absolute]
  rcases synthesized.routes with ⟨standard, combined, _⟩ | ⟨bridge, script, combined, _⟩ |
    ⟨bridge, style, _⟩
  · rw [result_load_combined options tree commands standard combined absolute, standard]
    exact iff_of_true ⟨_, rfl⟩ (fun differs => by cases differs)
  · rw [result_load_bridgeScript tree commands bridge script combined absolute, script]
    exact iff_of_true ⟨_, rfl⟩ (fun _ differs => by cases differs)
  · rw [result_load_bridgeStyle tree commands bridge style absolute, bridge, style]
    cases (Extract.run tree commands (options.extractionFor resource.flags) resource.path).result
      <;> simp

/-- **The names of an answer can be declared unless the given one is in the way.** Of a request that
is combined, and of one for a style in bridge mode, the answer binds at its top the names that belong
to its kind and, among them, the name of the export with the styles. Those that belong to its kind
are pairwise distinct, and strict code may bind them. All together are and may just when the given
name is not one of them and neither `eval` nor `arguments`. With an absolute path there is an answer,
unless a style in bridge mode cannot be extracted. -/
theorem load_declarable (synthesized : Synthesized options resource) :
    let name := options.exportNameFor resource.flags
    let route := Route.ofResource options.mode resource
    let earlier := earlierNames resource route
    let later := laterNames options resource route
    Emit.IsDeclarable (earlier ++ later) ∧
      (∀ text, (load tree commands options resource).result = .ok text →
        Emit.topNames text = earlier ++ name :: later ∧
          (Emit.IsDeclarable (Emit.topNames text) ↔
            name ∉ earlier ++ later ∧ name ≠ "eval" ∧ name ≠ "arguments")) ∧
      ((∃ text, (load tree commands options resource).result = .ok text) ↔
        Path.isAbsolute resource.path = true ∧
          (options.mode = .bridge → resource.isScript = false →
            ∃ sheet, (Extract.run tree commands (options.extractionFor resource.flags)
              resource.path).result = .ok sheet)) := by
  intro name route earlier later
  have own : Emit.IsDeclarable (earlier ++ later) := isDeclarable_ownNames options resource route
  refine ⟨own, ?_, exists_load_iff tree commands synthesized⟩
  intro text loaded
  have names : Emit.topNames text = earlier ++ name :: later :=
    topNames_load tree commands synthesized loaded
  refine ⟨names, ?_⟩
  rw [names]
  exact Emit.isDeclarable_iff own (options.isIdentifier_exportNameFor resource.flags)

/-- The statement at a bridged sheet with a name of its own, where all the names declared differ. -/
theorem load_declarable_namedCard :
    let options : LoaderOptions := { mode := .bridge, css := { cwd := "/app" } }
    let resource := namedCard "import './a.module.css?v=1';\n"
    Synthesized options resource ∧
      ∃ text, (load cardTree (fun _ => none) options resource).result = .ok text ∧
        Emit.topNames text =
          ["__knightedStyle0", "__knightedResolveModules", "styles", "knightedCssModules"] ∧
        Emit.IsDeclarable (Emit.topNames text) := by
  intro options resource
  have script : resource.isScript = true := by decide +kernel
  have flags : resource.flags =
      { marker := true, combined := true, exportName := some "styles" } := by decide +kernel
  have combined : resource.flags.combined = true := by rw [flags]
  have named : options.exportNameFor resource.flags = "styles" :=
    options.exportNameFor_of_exportName (by rw [flags]) (by decide +kernel)
  have routed : Route.ofResource options.mode resource = .bridgeScript := by
    unfold Route.ofResource
    rw [script, combined]
  have before : earlierNames resource .bridgeScript =
      ["__knightedStyle0", "__knightedResolveModules"] := by decide +kernel
  have behind : laterNames options resource .bridgeScript = ["knightedCssModules"] := rfl
  have synthesized : Synthesized options resource := .inl combined
  obtain ⟨-, names, answered⟩ := load_declarable cardTree (fun _ => none) synthesized
  obtain ⟨text, loaded⟩ := answered.mpr ⟨by decide +kernel, fun _ style => by
    rw [script] at style
    cases style⟩
  obtain ⟨arranged, fits⟩ := names text loaded
  rw [named, routed, before, behind] at arranged fits
  exact ⟨synthesized, text, loaded, arranged, fits.mpr ⟨by decide, by decide, by decide⟩⟩

/-- A combined script that gives the styles a name. -/
def givenName (name : String) : Resource where
  path := "/app/card.tsx"
  query := "?knighted-css&combined&exportName=" ++ name
  source := "export default 1;\n"
  rootDirectory := "/app"

/-- The answer to such a script has the name behind those of its own. It is what the counterexample
needs: such a name passes the check, is placed behind names that the answer has anyway, and can be
one of them. -/
private theorem exists_load_givenName {name : String} (valid : Emit.isIdentifier name = true)
    (flags : (givenName name).flags =
      { marker := true, combined := true, exportName := some name }) :
    let options : LoaderOptions := { css := { cwd := "/app" } }
    Synthesized options (givenName name) ∧ ∃ text,
      (load cardTree (fun _ => none) options (givenName name)).result = .ok text ∧
        Emit.topNames text = Emit.CombinedPlan.earlierNames ++ [name] := by
  intro options
  have combined : (givenName name).flags.combined = true := by rw [flags]
  have synthesized : Synthesized options (givenName name) := .inl combined
  have absolute : Path.isAbsolute (givenName name).path = true :=
    (by decide +kernel : Path.isAbsolute "/app/card.tsx" = true)
  have named : options.exportNameFor (givenName name).flags = name :=
    options.exportNameFor_of_exportName (by rw [flags]) valid
  have routed : Route.ofResource options.mode (givenName name) = .combined := by
    unfold Route.ofResource
    rw [combined]
  have behind : laterNames options (givenName name) .combined = [] := by
    rw [laterNames, flags]
    rfl
  obtain ⟨text, loaded⟩ := (exists_load_iff cardTree (fun _ => none) synthesized).mpr
    ⟨absolute, nofun⟩
  have names := topNames_load cardTree (fun _ => none) synthesized loaded
  rw [routed, named, behind] at names
  exact ⟨synthesized, text, loaded, names⟩

/-- Two names that can be given and not declared: `eval`, which strict code does not bind, and one
that the answer has for the styles it imports. -/
theorem not_isDeclarable_givenName :
    let options : LoaderOptions := { css := { cwd := "/app" } }
    (Synthesized options (givenName "eval") ∧
      ∃ text, (load cardTree (fun _ => none) options (givenName "eval")).result = .ok text ∧
        "eval" ∈ Emit.topNames text ∧ ¬ Emit.IsBindable "eval") ∧
    Synthesized options (givenName "__knightedCss") ∧
      ∃ text, (load cardTree (fun _ => none) options (givenName "__knightedCss")).result =
          .ok text ∧
        ¬ (Emit.topNames text).Nodup := by
  intro options
  have evalValid : Emit.isIdentifier "eval" = true := by decide +kernel
  have cssValid : Emit.isIdentifier "__knightedCss" = true := by decide +kernel
  obtain ⟨evalSynthesized, evalText, evalLoaded, evalNames⟩ :=
    exists_load_givenName evalValid (by decide +kernel)
  obtain ⟨cssSynthesized, cssText, cssLoaded, cssNames⟩ :=
    exists_load_givenName cssValid (by decide +kernel)
  refine ⟨⟨evalSynthesized, evalText, evalLoaded, ?_, ?_⟩, cssSynthesized, cssText, cssLoaded, ?_⟩
  · rw [evalNames]
    exact List.mem_append_right _ (List.mem_singleton_self _)
  · rw [Emit.isBindable_iff evalValid]
    exact fun bindable => bindable.1 rfl
  · rw [cssNames]
    intro distinct
    have bound : "__knightedCss" ∈ Emit.CombinedPlan.earlierNames := .tail _ (.head _)
    exact (List.nodup_append.mp distinct).2.2 _ bound _ (List.mem_singleton_self _) rfl

end StyleGraph.Loader
