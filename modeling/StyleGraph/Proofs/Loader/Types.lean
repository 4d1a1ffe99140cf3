import StyleGraph.Proofs.Loader.Bridge
import StyleGraph.Proofs.Loader.Entry
import StyleGraph.Proofs.Stable.Token

/-!
# Asking for types

A request may ask for types, and is then answered with the stable classes next to the styles. The
styles of such a request get their stable variants under the namespace that the loader finds for the
request; the styles of any other request get them under the namespace of the extraction. Where the
extraction sets a namespace of its own these are the same. Where it does not, the one is the
loader's and the other the default one.

## What is proved

`load_types`: with stable variants, asking for types leaves the sheet of a resource as it is if the
two namespaces agree; if they do not, no class has the same stable class in both sheets. They agree
for all options that a configuration asks for (`spacesAgree_ofConfig`), and `load_types_renames` is
a sheet where they do not.
-/

set_option autoImplicit false

namespace StyleGraph

open Stable (AutoStable Scheme className)

/-! ## What stable variants of a sheet depend on -/

/-- The stable classes of a name are the same just when the namespaces are, but for blanks around
them. -/
theorem Stable.className_inj {name space other : String} :
    className name space = className name other ↔ Text.trimmed space = Text.trimmed other := by
  constructor
  · intro same
    have longer : ∀ lead : String, Stable.token name ≠ lead ++ "-" ++ Stable.token name := by
      intro lead equal
      have lengths := congrArg String.length equal
      have hyphen : "-".length = 1 := rfl
      simp only [String.length_append, hyphen] at lengths
      omega
    simp only [className] at same
    split at same
    next blank =>
      split at same
      next blankOther =>
        rw [String.isEmpty_iff.mp blank, String.isEmpty_iff.mp blankOther]
      next => exact absurd same (longer _)
    next =>
      split at same
      next => exact absurd same.symm (longer _)
      next =>
        rw [String.append_left_inj, String.append_left_inj] at same
        exact same
  · intro same
    rw [className, className, same]

/-- A sheet is finished in the same way with the same scheme. -/
theorem finish?_congr {stable other : AutoStable}
    (same : Scheme.ofOption? stable = Scheme.ofOption? other) (css : String)
    (options : FinishOptions) (boost : Option Stable.Boost) :
    finish? css options stable boost = finish? css options other boost := by
  unfold finish?
  rw [same]

/-- Stable classes are asked for just if there is a scheme for them. -/
theorem isEnabled_eq_isSome (stable : AutoStable) :
    stable.isEnabled = (Scheme.ofOption? stable).isSome := by
  cases stable <;> rfl

/-- **An extraction depends on the scheme of its stable variants only.** -/
theorem Extract.run_congr_stable (tree : FileTree) (commands : Compile.Commands)
    (options : ExtractOptions) (entry : String) {stable : AutoStable}
    (same : Scheme.ofOption? stable = Scheme.ofOption? options.stable) :
    run tree commands { options with stable } entry = run tree commands options entry := by
  have finishes : ∀ state, finished { options with stable } state = finished options state := by
    intro state
    simp only [finished, ExtractOptions.needsFinish, isEnabled_eq_isSome, same,
      finish?_congr same]
  have projects : project tree commands { options with stable } = project tree commands options :=
    rfl
  simp only [run, projects, finishes]

/-- Without a namespace of its own the scheme has the default one. -/
theorem scheme_enabled {scheme : Scheme} (made : Scheme.ofOption? .enabled = some scheme) :
    Scheme.ofSpace Stable.defaultNamespace = scheme :=
  Option.some.inj made

/-- A namespace that is given is that of the scheme, with what is included and excluded. -/
theorem scheme_custom {space : Option String} {included excluded : Option Pattern} {scheme : Scheme}
    (made : Scheme.ofOption? (.custom space included excluded) = some scheme) :
    { Scheme.ofSpace (space.getD Stable.defaultNamespace) with included, excluded } = scheme :=
  Option.some.inj made

namespace LoaderOptions

/-- The namespace of stable classes is the same whether they are asked for or not: the extraction
sets one, or the loader's is the default one. -/
def SpacesAgree (options : LoaderOptions) : Prop :=
  match options.css.stable with
  | .custom (some _) _ _ => True
  | _ => Text.trimmed options.space = Stable.defaultNamespace

/-- What a configuration asks of stable variants is what its own setting says. Other settings are
read beside it, and a fault in one of them leaves no options at all. -/
theorem stableOf_of_ofConfig {config : Config} {cwd : String} {css : ExtractOptions}
    (made : ExtractOptions.ofConfig config cwd = .ok css) :
    ExtractOptions.stableOf config.stable = .ok css.stable := by
  unfold ExtractOptions.ofConfig at made
  simp only [bind, Except.bind] at made
  split at made
  · cases made
  next stable found =>
    split at made
    · cases made
      exact found
    · split at made
      · cases made
      · cases made
        exact found

/-- Stable variants that a configuration asks for have the namespace that it sets. There is one way
only to have them enabled, which keeps the namespace together with the two filters. -/
theorem space_of_stableOf {settings : Config.StableSettings} {stable : AutoStable}
    (made : ExtractOptions.stableOf settings = .ok stable) (enabled : stable.isEnabled = true) :
    ∃ included excluded, stable = .custom settings.space included excluded := by
  unfold ExtractOptions.stableOf at made
  simp only [bind, Except.bind] at made
  split at made
  · split at made
    · cases made
    next included _ =>
      split at made
      · cases made
      next excluded _ =>
        cases made
        exact ⟨included, excluded, rfl⟩
  · cases made
    cases enabled

/-- **Options that a configuration asks for** take both namespaces from one setting. A configuration
without a namespace has the default one in both places. -/
theorem spacesAgree_ofConfig {config : Config} {cwd : String} {options : LoaderOptions}
    (made : ofConfig config cwd = .ok options) (enabled : options.css.stable.isEnabled = true) :
    options.SpacesAgree := by
  unfold ofConfig at made
  simp only [bind, Except.bind] at made
  split at made
  · cases made
  next css extraction =>
    cases made
    obtain ⟨included, excluded, stable⟩ :=
      space_of_stableOf (stableOf_of_ofConfig extraction) enabled
    unfold SpacesAgree
    rw [stable]
    cases space : config.stable.space with
    | none =>
      show Text.trimmed config.space = Stable.defaultNamespace
      rw [Config.space, space]
      rfl
    | some space => trivial

/-- A request for types is answered under the namespace of the extraction, or the loader's. Only a
request for types replaces the namespace. All else of the scheme is kept as it is. -/
theorem scheme_extractionFor {options : LoaderOptions} {flags : Request.Flags} {scheme : Scheme}
    (stable : Scheme.ofOption? options.css.stable = some scheme)
    (types : flags.typesRequested = true) :
    Scheme.ofOption? (options.extractionFor flags).stable =
      some { scheme with space := Text.trimmed (options.spaceFor flags) } := by
  have requested : flags.stableRequested = true := by
    rw [Request.Flags.stableRequested, types, Bool.true_or]
  rw [extractionFor, if_pos requested]
  simp only
  split
  next space included excluded given =>
    rw [given] at stable
    obtain rfl := scheme_custom stable
    rfl
  next custom =>
    cases given : options.css.stable with
    | disabled =>
      rw [given] at stable
      cases stable
    | enabled =>
      rw [given] at stable
      obtain rfl := scheme_enabled stable
      rfl
    | custom space included excluded => exact absurd given (custom space included excluded)

/-- The two namespaces. By cases on how variants were asked for, each of which has its own idea of
the default. -/
theorem spacesAgree_iff {options : LoaderOptions} {flags : Request.Flags} {scheme : Scheme}
    (stable : Scheme.ofOption? options.css.stable = some scheme)
    (unspaced : flags.stableNamespace = none) :
    options.SpacesAgree ↔ Text.trimmed (options.spaceFor flags) = scheme.space := by
  have standard : Text.trimmed Stable.defaultNamespace = Stable.defaultNamespace := rfl
  unfold SpacesAgree spaceFor
  cases given : options.css.stable with
  | disabled =>
    rw [given] at stable
    cases stable
  | enabled =>
    rw [given] at stable
    obtain rfl := scheme_enabled stable
    simp only [unspaced, Scheme.ofSpace, standard]
  | custom space included excluded =>
    rw [given] at stable
    obtain rfl := scheme_custom stable
    cases space with
    | none => simp only [unspaced, Scheme.ofSpace, Option.getD_none, standard]
    | some space => simp only [unspaced, Scheme.ofSpace, Option.getD_some]

end LoaderOptions

/-- Another request for the same resource asks for the same, and for types. -/
structure Resource.AsksForTypes (resource typed : Resource) : Prop where
  path : typed.path = resource.path
  source : typed.source = resource.source
  flags : typed.flags = { resource.flags with typesRequested := true }

namespace Resource.AsksForTypes

variable {resource typed : Resource} (asks : resource.AsksForTypes typed)

include asks

/-- A request for types is for the same file, so it is for a script just if the other one is. -/
theorem isScript : typed.isScript = resource.isScript := by
  rw [Resource.isScript, Resource.isScript, Resource.flavor?, Resource.flavor?, asks.path]

/-- The name of the export does not depend on whether types are asked for. -/
theorem exportNameFor (options : LoaderOptions) :
    options.exportNameFor typed.flags = options.exportNameFor resource.flags :=
  options.exportNameFor_congr (by rw [asks.flags])

/-- Both requests go the same way. -/
theorem route (mode : Config.LoaderMode) :
    Loader.Route.ofResource mode typed = Loader.Route.ofResource mode resource := by
  unfold Loader.Route.ofResource
  rw [asks.isScript, asks.flags]

/-- Both are answered with the same original. -/
theorem standardModule (name : String) (sheet : Extracted) (literal : Option String) :
    Loader.standardModule typed name sheet literal =
      Loader.standardModule resource name sheet literal := by
  unfold Loader.standardModule
  rw [asks.isScript, asks.source]

end Resource.AsksForTypes

namespace Loader

/-- A standard answer comes out of the extraction for its flags. The types of stable classes are
made from the text that was extracted, and not from the files again. -/
theorem result_standard {options : LoaderOptions} {resource : Resource} (tree : FileTree)
    (commands : Compile.Commands) (standard : Route.ofResource options.mode resource = .standard)
    (absolute : Path.isAbsolute resource.path = true) :
    (load tree commands options resource).result =
      match (Extract.run tree commands (options.extractionFor resource.flags) resource.path).result
        with
      | .error fault => .error (.extraction fault)
      | .ok sheet =>
        let literal :=
          if resource.flags.stableRequested then
            some (Stable.stableLiteral sheet.css (options.spaceFor resource.flags) resource.path
              resource.scriptKind).text
          else none
        let name := options.exportNameFor resource.flags
        .ok ((standardModule resource name sheet literal).render name) := by
  rw [load, if_pos absolute]
  simp only [standard, warnBefore]
  exact result_loadSheet options tree commands _ _ _

/-- The namespace of a scheme has no blanks at its ends. -/
theorem trimmed_space {stable : AutoStable} {scheme : Scheme}
    (made : Scheme.ofOption? stable = some scheme) : Text.trimmed scheme.space = scheme.space := by
  cases stable with
  | disabled => cases made
  | enabled =>
    obtain rfl := scheme_enabled made
    exact Text.trimmed_trimmed _
  | custom space included excluded =>
    obtain rfl := scheme_custom made
    exact Text.trimmed_trimmed _

/-- Where the namespaces agree, a request for types has the extraction of any other request. -/
theorem run_extractionFor {options : LoaderOptions} {flags : Request.Flags} {scheme : Scheme}
    (tree : FileTree) (commands : Compile.Commands)
    (stable : Scheme.ofOption? options.css.stable = some scheme)
    (types : flags.typesRequested = true) (unspaced : flags.stableNamespace = none)
    (agrees : options.SpacesAgree) (entry : String) :
    Extract.run tree commands (options.extractionFor flags) entry =
      Extract.run tree commands options.css entry := by
  have after := LoaderOptions.scheme_extractionFor stable types
  rw [(LoaderOptions.spacesAgree_iff stable unspaced).mp agrees] at after
  obtain ⟨stable', same⟩ := exists_extractionFor_eq options flags
  rw [same] at after ⊢
  exact Extract.run_congr_stable tree commands options.css entry (after.trans stable.symm)

/-- **Asking for types leaves the sheet as it is where the namespaces agree.** Both requests fail
with the same fault, or both are answered with the same sheet, the one with the stable classes next
to it. Where the namespaces do not agree, no class has the same stable class in both sheets, though
the same filters apply. -/
theorem load_types (options : LoaderOptions) {resource typed : Resource} (tree : FileTree)
    (commands : Compile.Commands) (asks : resource.AsksForTypes typed)
    (unasked : resource.flags.stableRequested = false)
    (standard : Route.ofResource options.mode resource = .standard)
    (absolute : Path.isAbsolute resource.path = true)
    (enabled : options.css.stable.isEnabled = true) :
    let name := options.exportNameFor resource.flags
    let plainly := load tree commands options resource
    let stably := load tree commands options typed
    (options.SpacesAgree →
      match (Extract.run tree commands options.css resource.path).result with
      | .error fault =>
        plainly.result = .error (.extraction fault) ∧ stably.result = .error (.extraction fault)
      | .ok sheet => ∃ literal,
        plainly.result = .ok ((standardModule resource name sheet none).render name) ∧
          stably.result = .ok ((standardModule resource name sheet (some literal)).render name)) ∧
    ∃ before after,
      Scheme.ofOption? (options.extractionFor resource.flags).stable = some before ∧
      Scheme.ofOption? (options.extractionFor typed.flags).stable = some after ∧
      after.included = before.included ∧ after.excluded = before.excluded ∧
      ∀ class', className class' after.space = className class' before.space ↔
        options.SpacesAgree := by
  intro name plainly stably
  obtain ⟨untyped, unspaced⟩ : resource.flags.typesRequested = false ∧
      resource.flags.stableNamespace = none := by
    simpa [Request.Flags.stableRequested] using unasked
  have types : typed.flags.typesRequested = true := by rw [asks.flags]
  have requested : typed.flags.stableRequested = true := by
    rw [Request.Flags.stableRequested, types, Bool.true_or]
  have unspacedTyped : typed.flags.stableNamespace = none := by rw [asks.flags, unspaced]
  have plain : options.extractionFor resource.flags = options.css := by
    rw [LoaderOptions.extractionFor, if_neg (by rw [unasked]; exact Bool.false_ne_true)]
  obtain ⟨before, stable⟩ : ∃ before, Scheme.ofOption? options.css.stable = some before :=
    Option.isSome_iff_exists.mp (by rw [← isEnabled_eq_isSome, enabled])
  have after := LoaderOptions.scheme_extractionFor stable types
  have agree := LoaderOptions.spacesAgree_iff stable unspacedTyped
  refine ⟨fun agrees => ?_, before, _, by rw [plain, stable], after, rfl, rfl, fun class' => ?_⟩
  · -- under one namespace both requests extract the same
    have answer := result_standard tree commands standard absolute
    have typedAnswer := result_standard tree commands ((asks.route _).trans standard)
      (by rw [asks.path, absolute])
    rw [plain, unasked] at answer
    rw [run_extractionFor tree commands stable types unspacedTyped agrees, requested, asks.path,
      asks.exportNameFor] at typedAnswer
    cases extracted : (Extract.run tree commands options.css resource.path).result with
    | error fault =>
      rw [extracted] at answer typedAnswer
      exact ⟨answer, typedAnswer⟩
    | ok sheet =>
      rw [extracted] at answer typedAnswer
      simp only [Bool.false_eq_true, if_false, if_true] at answer typedAnswer
      rw [asks.standardModule] at typedAnswer
      exact ⟨_, answer, typedAnswer⟩
  · -- a stable class spells its namespace, so no class hides a difference
    rw [Stable.className_inj, agree, Text.trimmed_trimmed, trimmed_space stable]

/-! ## A sheet of one class -/

/-- A request for the one sheet of `cardTree`. -/
def cardRequest (query : String) : Resource where
  path := "/app/a.module.css"
  query := query
  rootDirectory := "/app"

/-- The request asks for CSS and for nothing else. -/
private theorem flags_cardRequest :
    (cardRequest "?knighted-css").flags = { marker := true } := by
  decide +kernel

/-- The second request asks for types as well. -/
private theorem asksForTypes_cardRequest :
    (cardRequest "?knighted-css").AsksForTypes (cardRequest "?knighted-css&types") where
  path := rfl
  source := rfl
  flags := by
    rw [flags_cardRequest]
    decide +kernel

/-- Its path is absolute, whatever its query is. -/
private theorem isAbsolute_cardRequest (query : String) :
    Path.isAbsolute (cardRequest query).path = true :=
  (rfl : Path.isAbsolute "/app/a.module.css" = true)

/-- It is answered with CSS. -/
private theorem route_cardRequest :
    Route.ofResource .standard (cardRequest "?knighted-css") = .standard := by
  unfold Route.ofResource
  rw [flags_cardRequest]

/-- The CSS is exported under the usual name. -/
private theorem exportNameFor_cardRequest (space : String) (css : ExtractOptions) :
    LoaderOptions.exportNameFor { space, css } (cardRequest "?knighted-css").flags =
      "knightedCss" := by
  have valid : Emit.isIdentifier Config.defaultExportName = true := rfl
  rw [flags_cardRequest]
  exact if_pos valid

/-- The card is extracted as it is finished, for any choice of stable classes. -/
private theorem run_stableCard {stable : AutoStable} {css : String}
    (enabled : stable.isEnabled = true)
    (finishes : finish? ".a { color: red }\n" {} stable none = some ⟨css, none⟩) :
    (Extract.run cardTree (fun _ => none) { cwd := "/app", stable } "/app/a.module.css").result =
      .ok { css, files := ["/app/a.module.css"], modules := none } := by
  -- The extraction looks for files in the same way, whatever variants are made.
  have projects : Extract.project cardTree (fun _ => none) { cwd := "/app", stable } =
      Extract.project cardTree (fun _ => none) { cwd := "/app" } := rfl
  have resolved : Extract.resolveEntry
      (Extract.project cardTree (fun _ => none) { cwd := "/app", stable }) "/app"
        "/app/a.module.css" = ([.resolved "/app/a.module.css" "/app"], .ok "/app/a.module.css") := by
    rw [projects, resolveEntry_cardTree]
  have needs : ExtractOptions.needsFinish { cwd := "/app", stable } = true := by
    simp [ExtractOptions.needsFinish, enabled]
  have joins : Extract.joined
      { visited := ["/app/a.module.css"], files := ["/app/a.module.css"]
        compiled := [("/app/a.module.css", ".a { color: red }\n")]
        events := [.resolved "/app/a.module.css" "/app"] } = ".a { color: red }\n" := rfl
  rw [Extract.run_of_resolveEntry resolved, projects, walkFrom_cardTree]
  simp only [Extract.finished, needs, if_true, joins, Option.getD_none, finishes]

/-- The extraction sets a namespace of its own. Both namespaces are trimmed before they are
compared, so the blanks in one of them make no difference. -/
theorem load_types_branded :
    let options : LoaderOptions :=
      { space := "acme", css := { cwd := "/app", stable := .custom (some "brand") none none } }
    let sheet : Extracted :=
      { css := ".a, .brand-a \x7b\n  color: red;\n\x7d\n", files := ["/app/a.module.css"]
        modules := none }
    ∃ literal,
      (load cardTree (fun _ => none) options (cardRequest "?knighted-css")).result =
        .ok ((standardModule (cardRequest "?knighted-css") "knightedCss" sheet none).render
          "knightedCss") ∧
      (load cardTree (fun _ => none) options (cardRequest "?knighted-css&types")).result =
        .ok ((standardModule (cardRequest "?knighted-css") "knightedCss" sheet
          (some literal)).render "knightedCss") := by
  intro options sheet
  have unasked : (cardRequest "?knighted-css").flags.stableRequested = false := by
    rw [flags_cardRequest]
    rfl
  have loads := (load_types options cardTree (fun _ => none) asksForTypes_cardRequest unasked
    route_cardRequest (isAbsolute_cardRequest _) rfl).1 trivial
  have extracted : (Extract.run cardTree (fun _ => none) options.css
      (cardRequest "?knighted-css").path).result = .ok sheet :=
    run_stableCard rfl (by decide +kernel)
  have named : options.exportNameFor (cardRequest "?knighted-css").flags = "knightedCss" :=
    exportNameFor_cardRequest _ _
  rw [extracted, named] at loads
  exact loads

/-- **Asking for types gives a class another stable class**: the extraction takes the default
namespace, the request that of the loader. -/
theorem load_types_renames :
    let options : LoaderOptions := { space := "acme", css := { cwd := "/app", stable := .enabled } }
    let sheet : Extracted :=
      { css := ".a, .knighted-a \x7b\n  color: red;\n\x7d\n", files := ["/app/a.module.css"]
        modules := none }
    let typedSheet : Extracted :=
      { css := ".a, .acme-a \x7b\n  color: red;\n\x7d\n", files := ["/app/a.module.css"]
        modules := none }
    (cardRequest "?knighted-css").AsksForTypes (cardRequest "?knighted-css&types") ∧
      (load cardTree (fun _ => none) options (cardRequest "?knighted-css")).result =
        .ok ((standardModule (cardRequest "?knighted-css") "knightedCss" sheet none).render
          "knightedCss") ∧
      ∃ literal,
        (load cardTree (fun _ => none) options (cardRequest "?knighted-css&types")).result =
          .ok ((standardModule (cardRequest "?knighted-css") "knightedCss" typedSheet
            (some literal)).render "knightedCss") := by
  intro options sheet typedSheet
  have asks := asksForTypes_cardRequest
  have absolute := isAbsolute_cardRequest "?knighted-css"
  have named : options.exportNameFor (cardRequest "?knighted-css").flags = "knightedCss" :=
    exportNameFor_cardRequest _ _
  have unasked : (cardRequest "?knighted-css").flags.stableRequested = false := by
    rw [flags_cardRequest]
    rfl
  have asked : (cardRequest "?knighted-css&types").flags.stableRequested = true := by
    rw [asks.flags, flags_cardRequest]
    rfl
  have plain : options.extractionFor (cardRequest "?knighted-css").flags = options.css := by
    rw [LoaderOptions.extractionFor, if_neg (by rw [unasked]; exact Bool.false_ne_true)]
  have spaced : options.extractionFor (cardRequest "?knighted-css&types").flags =
      { cwd := "/app", stable := .custom (some "acme") none none } := by
    have space : options.spaceFor (cardRequest "?knighted-css&types").flags = "acme" := by
      rw [asks.flags, flags_cardRequest]
      rfl
    rw [LoaderOptions.extractionFor, if_pos asked, space]
  have extracted : (Extract.run cardTree (fun _ => none) options.css
      (cardRequest "?knighted-css").path).result = .ok sheet :=
    run_stableCard rfl (by decide +kernel)
  have typedExtracted : (Extract.run cardTree (fun _ => none)
      { cwd := "/app", stable := .custom (some "acme") none none }
      (cardRequest "?knighted-css").path).result = .ok typedSheet :=
    run_stableCard rfl (by decide +kernel)
  have answer := result_standard cardTree (fun _ => none)
    (show Route.ofResource options.mode (cardRequest "?knighted-css") = .standard from
      route_cardRequest) absolute
  have typedAnswer := result_standard cardTree (fun _ => none)
    ((asks.route options.mode).trans route_cardRequest) (by rw [asks.path, absolute])
  rw [plain, extracted, unasked, named] at answer
  rw [spaced, asks.path, typedExtracted, asked, asks.exportNameFor, named] at typedAnswer
  simp only [asks.standardModule] at typedAnswer
  exact ⟨asks, answer, _, typedAnswer⟩

end Loader

end StyleGraph
