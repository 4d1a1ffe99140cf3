import StyleGraph.Proofs.Firsts
import StyleGraph.Proofs.Text.Cut
import StyleGraph.Script.Imports

/-!
# Style modules that a script refers to

Two searches go over the statements of a script. One is for what the script loads and leaves out
what is imported or exported for types alone, the other one is for style modules and leaves out
nothing. So a style module that a script names for its types only is found by the second search and
never loaded (`styleModuleImports_typed`); `styleModuleImports_eq_imported_iff` tells when the two
agree.
-/

set_option autoImplicit false

namespace StyleGraph.Script

/-! ## Names of style modules -/

/-- A specifier has `.module.` and the extension of a style sheet at its end, or before its
query. -/
def NamesStyleModule (specifier : String) : Prop :=
  ∃ stem extension query, specifier.toList = stem ++ ".module.".toList ++ extension ++ query ∧
    extension ∈ ["css".toList, "scss".toList, "sass".toList, "less".toList] ∧
    '?' ∉ stem ∧ (query = [] ∨ ∃ body, query = '?' :: body)

/-- The test on a specifier is the naming rule of the statement. The endings of the test are those
of the rule with the dot in front; a query is cut off before they are compared. -/
theorem isStyleModule_iff {specifier : String} :
    isStyleModule specifier = true ↔ NamesStyleModule specifier := by
  have tails : [".module.css", ".module.scss", ".module.sass", ".module.less"].map String.toList =
      ["css".toList, "scss".toList, "sass".toList, "less".toList].map (".module.".toList ++ ·) := by
    decide
  have ends (path : List Char) :
      ([".module.css", ".module.scss", ".module.sass", ".module.less"].any fun tail =>
        Text.endsWith tail.toList path) = true ↔
      ∃ extension ∈ ["css".toList, "scss".toList, "sass".toList, "less".toList], ∃ stem,
        path = stem ++ (".module.".toList ++ extension) := by
    have mapped := congrArg (List.any · fun tail => Text.endsWith tail path) tails
    simp only [List.any_map] at mapped
    rw [show ([".module.css", ".module.scss", ".module.sass", ".module.less"].any fun tail =>
      Text.endsWith tail.toList path) = _ from mapped, List.any_eq_true]
    refine exists_congr fun extension => and_congr_right fun _ => ?_
    simp only [Function.comp_apply, Text.endsWith, Option.isSome_iff_exists,
      Text.stripEnd?_eq_some_iff]
  obtain ⟨path, query, whole, absent, begins, cut⟩ := Text.exists_cutQuery_eq specifier.toList
  simp only [isStyleModule, cut, ends]
  constructor
  · rintro ⟨extension, listed, stem, rfl⟩
    refine ⟨stem, extension, query, by simp only [whole, List.append_assoc], listed, ?_, begins⟩
    exact fun mem => absent (List.mem_append_left _ mem)
  · rintro ⟨stem, extension, query, same, listed, unasked, begins⟩
    have plain : ∀ extension ∈ ["css".toList, "scss".toList, "sass".toList, "less".toList],
        '?' ∉ ".module.".toList ++ extension := by decide
    have named : '?' ∉ stem ++ (".module.".toList ++ extension) := fun mem =>
      (List.mem_append.mp mem).elim unasked (plain extension listed)
    rw [same, List.append_assoc stem, Text.cutQuery_append named begins] at cut
    exact ⟨extension, listed, stem, (congrArg Prod.fst cut).symm⟩

/-! ## Statements -/

/-- Whether a statement imports or exports for types alone. -/
def Statement.forTypes : Statement → Bool
  | .imports typesOnly _ _ => typesOnly
  | .exports typesOnly _ _ _ => typesOnly
  | .exportsAll typesOnly _ _ => typesOnly
  | _ => false

/-- What a script loads is what it refers to, less what it refers to for types alone. -/
theorem Statement.valueSource?_eq (statement : Statement) :
    statement.valueSource? = if statement.forTypes then none else statement.source? := by
  unfold valueSource? forTypes source?
  cases statement with
  | imports typesOnly => cases typesOnly <;> rfl
  | exports typesOnly declarators names source => cases typesOnly <;> cases source <;> rfl
  | exportsAll typesOnly => cases typesOnly <;> rfl
  | _ => rfl

/-- The style modules that statements refer to, in order, each with whether it is loaded. -/
def styleLinks (statements : List Statement) : List (String × Bool) :=
  statements.filterMap fun statement =>
    (statement.source?.filter isStyleModule).map fun style => (style, !statement.forTypes)

/-- The style links are the specifiers that name a style module, each with whether its statement is
there at run time. -/
theorem mem_styleLinks {statements : List Statement} {style : String} {loaded : Bool} :
    (style, loaded) ∈ styleLinks statements ↔ NamesStyleModule style ∧
      ∃ statement ∈ statements, statement.source? = some style ∧ loaded = !statement.forTypes := by
  simp only [styleLinks, List.mem_filterMap, Option.map_eq_some_iff, Option.filter_eq_some_iff,
    isStyleModule_iff, Prod.mk.injEq]
  constructor
  · rintro ⟨statement, mem, _, ⟨refers, named⟩, rfl, rfl⟩
    exact ⟨named, statement, mem, refers, rfl⟩
  · rintro ⟨named, statement, mem, refers, rfl⟩
    exact ⟨statement, mem, style, ⟨refers, named⟩, rfl, rfl⟩

/-- Without that, they are the sources of all statements, filtered by the rule. -/
theorem map_styleLinks (statements : List Statement) :
    (styleLinks statements).map Prod.fst =
      (statements.filterMap Statement.source?).filter isStyleModule := by
  induction statements with
  | nil => rfl
  | cons statement statements ih =>
    rw [styleLinks] at ih ⊢
    cases refers : statement.source? with
    | none => simp [refers, ih]
    | some style => cases named : isStyleModule style <;> simp [refers, named, ih]

/-- Those that count are the sources of the statements that are not for types only. By induction on
the statements, by whether each has a source that is a style. -/
theorem counted_styleLinks (statements : List Statement) :
    Firsts.counted (styleLinks statements) =
      (statements.filterMap Statement.valueSource?).filter isStyleModule := by
  induction statements with
  | nil => rfl
  | cons statement statements ih =>
    rw [styleLinks] at ih ⊢
    cases typed : statement.forTypes <;> cases refers : statement.source? with
    | none => simp [refers, ih, Statement.valueSource?_eq, typed]
    | some style =>
      cases named : isStyleModule style <;>
        simp [refers, named, ih, Statement.valueSource?_eq, typed, Firsts.counted_cons_true,
          Firsts.counted_cons_false]

/-- Keeping first places is what the library does, so its lemmas apply. -/
theorem distinct_eq (found : List String) : distinct found = found.eraseDups :=
  Firsts.foldl_add_nil found

/-! ## The theorem -/

/-- **When the style modules of a script are those that it loads.** In a text that is a script, the
style modules that are found are those that a statement refers to, and those that are loaded are
the ones that a statement refers to for more than types. The two are the same, each once and where
it first occurs, just when every style module that is referred to for types alone has come before,
or is the next new one that is loaded. -/
theorem styleModuleImports_eq_imported_iff {source path : String} {statements : List Statement}
    (script : read? (moduleFlavor path) source = some statements) :
    ∃ imported, importedSources? source path = some imported ∧
      (∀ style, style ∈ styleModuleImports source path ↔ NamesStyleModule style ∧
        ∃ statement ∈ statements, statement.source? = some style) ∧
      (∀ style, style ∈ imported.filter isStyleModule ↔ NamesStyleModule style ∧
        ∃ statement ∈ statements, statement.source? = some style ∧ statement.forTypes = false) ∧
      styleModuleImports source path = ((styleLinks statements).map Prod.fst).eraseDups ∧
      (styleModuleImports source path = (imported.filter isStyleModule).eraseDups ↔
        Firsts.Idle (styleLinks statements)) := by
  have found : styleModuleImports source path =
      ((styleLinks statements).map Prod.fst).eraseDups := by
    simp only [styleModuleImports, script, map_styleLinks]
    exact distinct_eq _
  have loaded := counted_styleLinks statements
  refine ⟨statements.filterMap Statement.valueSource?, ?_, fun style => ?_, fun style => ?_, found,
    ?_⟩
  · rw [importedSources?, script, Option.map_some]
  · rw [found, List.mem_eraseDups, List.mem_map]
    constructor
    · rintro ⟨⟨_, loaded⟩, link, rfl⟩
      obtain ⟨named, statement, mem, refers, _⟩ := mem_styleLinks.mp link
      exact ⟨named, statement, mem, refers⟩
    · rintro ⟨named, statement, mem, refers⟩
      exact ⟨_, mem_styleLinks.mpr ⟨named, statement, mem, refers, rfl⟩, rfl⟩
  · rw [← loaded, Firsts.mem_counted, mem_styleLinks]
    simp only [eq_comm (a := true), Bool.not_eq_true']
  · rw [found, ← loaded, eq_comm]
    exact Firsts.eraseDups_counted_eq_iff _

/-- A script that names one of its style modules for types first, and exports all of another
one. -/
def cardScript : String :=
  "import type { Card } from './card.module.css';\n" ++
    "import { card } from './card.module.css';\nexport * from './theme.module.scss?inline';\n"

/-- The statement at a script whose import for types comes after the real one and changes nothing.
-/
theorem styleModuleImports_eq_imported_iff_card :
    ∃ statements imported, read? (moduleFlavor "/src/card.ts") cardScript = some statements ∧
      importedSources? cardScript "/src/card.ts" = some imported ∧
      styleModuleImports cardScript "/src/card.ts" = (imported.filter isStyleModule).eraseDups ∧
      Firsts.Idle (styleLinks statements) := by
  have chars : cardScript.toList = _ := Text.toList_ofList_append _ _
  have read : (read? (moduleFlavor "/src/card.ts") cardScript).map
      (fun statements => (styleLinks statements, statements.filterMap Statement.valueSource?)) =
        some ([("./card.module.css", false), ("./card.module.css", true),
            ("./theme.module.scss?inline", true)],
          ["./card.module.css", "./theme.module.scss?inline"]) := by
    rewrite [read?, chars]
    decide +kernel
  obtain ⟨statements, script, both⟩ := Option.map_eq_some_iff.mp read
  obtain ⟨links, loaded⟩ := Prod.mk.inj both
  obtain ⟨imported, known, -, -, found, agree⟩ := styleModuleImports_eq_imported_iff script
  have sources : imported = statements.filterMap Statement.valueSource? := by
    rw [importedSources?, script, Option.map_some] at known
    exact (Option.some.inj known).symm
  have same : styleModuleImports cardScript "/src/card.ts" =
      (imported.filter isStyleModule).eraseDups := by
    rw [found, links, sources, loaded]
    decide
  exact ⟨statements, imported, script, known, same, agree.mp same⟩

/-- A script that uses a style module for its types alone. -/
def typedScript : String := "import type { Card } from './card.module.css';\n"

/-- Its style module is found and not loaded. -/
theorem styleModuleImports_typed :
    importedSources? typedScript "/src/card.ts" = some [] ∧
      styleModuleImports typedScript "/src/card.ts" = ["./card.module.css"] := by
  decide +kernel

end StyleGraph.Script
