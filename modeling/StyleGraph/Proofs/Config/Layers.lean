import StyleGraph.Config.Discovery
import StyleGraph.Proofs.Config.RoundTrip
import StyleGraph.Proofs.Text.Cut

/-!
# Configurations as layers over the defaults

A configuration in the description of a package is laid over the written defaults, table by table,
and what comes of that is read. JSON that is a configuration by itself is read field by field, and
what it lacks has its default. Both give the same configuration, however few of its fields are set
and at whichever depth (`ofLayers?_of_ofJson?`, `load_package`).

Sections need not be tables: a list takes the place of the default section, and then its items are
all there is. And the layers are read less strictly than JSON is, so nothing is said of what the
layers make a configuration of and JSON does not.

What a field becomes is told by `Filled`, and the readers of sections depend on their fields only.
-/

set_option autoImplicit false

namespace StyleGraph.Config

namespace Setting

/-! ## Overlaid tables -/

/-- What stands further behind has precedence. -/
theorem member?_append (first rest : List (String × Setting)) (key : String) :
    member? (first ++ rest) key = (member? first key).or (member? rest key) := by
  unfold member?
  rw [List.find?_append]
  cases first.find? fun member => member.1 = key <;> rfl

/-- An overlay keeps the members that are there, and lays the upper value on each that the upper
table has as well. -/
theorem member?_overlayMembers (members upper : List (String × Setting)) (key : String) :
    member? (overlayMembers members upper) key = (member? members key).map fun value =>
      match member? upper key with
      | some other => overlay value other
      | none => value := by
  induction members with
  | nil => rw [overlayMembers]; rfl
  | cons member members ih =>
    obtain ⟨name, value⟩ := member
    rw [overlayMembers, member?_cons, member?_cons, ih]
    by_cases same : name = key
    · subst same
      rw [if_pos rfl, if_pos rfl]
      rfl
    · rw [if_neg same, if_neg same]

/-- The members of which another table has none. This is what an upper layer adds to a lower one,
key by key. -/
theorem member?_filter (members upper : List (String × Setting)) (key : String) :
    member? (upper.filter fun member => (member? members member.1).isNone) key =
      if (member? members key).isNone then member? upper key else none := by
  induction upper with
  | nil => exact (ite_self none).symm
  | cons member upper ih =>
    rw [List.filter_cons, member?_cons]
    by_cases same : member.1 = key
    · subst same
      split
      · rw [member?_cons, if_pos rfl, if_pos rfl]
      next known =>
        rw [ih, if_neg known]
    · rw [if_neg same]
      split
      · rw [member?_cons, if_neg same, ih]
      · exact ih

/-- Where only one of two tables has a member it counts, and where both have one they are
overlaid. -/
theorem exists_overlay_eq (members upper : List (String × Setting)) :
    ∃ overlaid, overlay (.table members) (.table upper) = .table overlaid ∧
      ∀ key, member? overlaid key =
        match member? members key, member? upper key with
        | some value, some other => some (overlay value other)
        | some value, none => some value
        | none, known => known := by
  refine ⟨_, by rw [overlay], fun key => ?_⟩
  rw [member?_append, member?_overlayMembers, member?_filter]
  cases member? members key <;> cases member? upper key <;> rfl

/-- A table without members changes nothing. -/
theorem overlay_empty (members : List (String × Setting)) :
    (Setting.table members).overlay (.table []) = .table members := by
  have kept : ∀ members : List (String × Setting), overlayMembers members [] = members := by
    intro members
    induction members with
    | nil => rfl
    | cons member members ih =>
      rw [overlayMembers, ih]
      rfl
  rw [overlay, kept, List.filter_nil, List.append_nil]

/-- What a later layer has takes the place of a setting that is no table. -/
theorem overlay_of_leaf {setting : Setting} (leaf : ∀ members, setting ≠ .table members)
    (upper : Setting) : setting.overlay upper = upper := by
  cases setting with
  | table members => exact absurd rfl (leaf members)
  | _ => rfl

end Setting

/-! ## Sections over the defaults -/

/-- What a section has under a key, given what the default section and the later one have there:
what the later one has, unless the default one is overlaid with it. -/
inductive Filled : Option Setting → Option Setting → Option Setting → Prop
  | kept {default : Option Setting} (upper : Option Setting) : Filled default upper upper
  | missing (value : Setting) : Filled (some value) none (some value)
  | overlaid (value other : Setting) : Filled (some value) (some other) (some (value.overlay other))

/-- What a section over the default one has is told by what each of them has. -/
def IsFilled (defaults members filled : List (String × Setting)) : Prop :=
  ∀ key, Filled (Setting.member? defaults key) (Setting.member? members key)
    (Setting.member? filled key)

/-- **A section over the default one.** Tables are overlaid member by member, and a list counts as
it is. -/
theorem exists_filled (defaults : List (String × Setting)) {names : List String} {upper : Setting}
    {members : List (String × Setting)} (listed : sectionMembers true names upper = some members) :
    ∃ filled, sectionMembers false names ((Setting.table defaults).overlay upper) = some filled ∧
      IsFilled defaults members filled := by
  cases upper with
  | table others =>
    cases listed
    obtain ⟨filled, eq, found⟩ := Setting.exists_overlay_eq defaults members
    refine ⟨filled, by rw [eq]; rfl, ?_⟩
    intro key
    rw [found key]
    cases Setting.member? defaults key with
    | none => exact .kept _
    | some value =>
      cases Setting.member? members key with
      | none => exact .missing value
      | some other => exact .overlaid value other
  | list items =>
    refine ⟨members, ?_, fun key => .kept _⟩
    unfold sectionMembers at listed ⊢
    dsimp only [Setting.overlay] at listed ⊢
    split at listed
    · cases listed
    · exact listed
  | null => cases listed
  | flag => cases listed
  | whole => cases listed
  | fraction => cases listed
  | text => cases listed

/-! ## Fields over the defaults -/

/-- What one reader makes of a setting, the other makes of it too. -/
def IsLooser {α : Type} (strict loose : Setting → Option α) : Prop :=
  ∀ setting value, strict setting = some value → loose setting = some value

/-- A reader reads what it reads. -/
theorem IsLooser.refl {α : Type} (read : Setting → Option α) : IsLooser read read :=
  fun _ _ known => known

/-- What may be `null` is read as loosely as what it is otherwise. -/
theorem IsLooser.optional {α : Type} {strict loose : Setting → Option α}
    (looser : IsLooser strict loose) : IsLooser (readOptional strict) (readOptional loose) := by
  intro setting value known
  unfold readOptional at known ⊢
  split at known
  · exact known
  · obtain ⟨inner, read, rfl⟩ := Option.map_eq_some_iff.mp known
    rw [looser _ inner read]
    rfl

section Fields

variable {α : Type} {strict loose : Setting → Option α} {default value : α}
  {defaults members filled : List (String × Setting)} {key : String}

/-- **A field over its default** is what it is without the layer below, if the written default is
read as the default and overlaying it changes nothing of what is read. -/
theorem field_of_filled (isFilled : IsFilled defaults members filled)
    (looser : IsLooser strict loose)
    (written : ∀ setting, Setting.member? defaults key = some setting →
      loose setting = some default ∧ IsLooser strict fun other => loose (setting.overlay other))
    (known : field members key strict default = some value) :
    field filled key loose default = some value := by
  have here := isFilled key
  unfold field at known ⊢
  generalize Setting.member? defaults key = below at here written
  generalize Setting.member? members key = above at here known
  generalize Setting.member? filled key = result at here
  cases here with
  | kept =>
    cases above with
    | none => exact known
    | some other => exact looser other value known
  | missing setting =>
    rw [← known]
    exact (written setting rfl).1
  | overlaid setting other => exact (written setting rfl).2 other value known

/-- A field that the defaults leave out. -/
theorem field_of_unset (isFilled : IsFilled defaults members filled)
    (unset : Setting.member? defaults key = none) (looser : IsLooser strict loose)
    (known : field members key strict default = some value) :
    field filled key loose default = some value := by
  apply field_of_filled isFilled looser _ known
  intro setting found
  rw [unset] at found
  cases found

/-- A field whose default is written. -/
theorem field_of_written (isFilled : IsFilled defaults members filled) {written : Setting}
    (found : Setting.member? defaults key = some written) (reads : loose written = some default)
    (looser : IsLooser strict loose)
    (overlays : IsLooser strict fun other => loose (written.overlay other))
    (known : field members key strict default = some value) :
    field filled key loose default = some value := by
  apply field_of_filled isFilled looser _ known
  intro setting same
  rw [found] at same
  cases same
  exact ⟨reads, overlays⟩

/-- A field whose written default is no table. -/
theorem field_of_leaf (isFilled : IsFilled defaults members filled) {leaf : Setting}
    (found : Setting.member? defaults key = some leaf) (reads : loose leaf = some default)
    (isLeaf : ∀ members, leaf ≠ .table members) (looser : IsLooser strict loose)
    (known : field members key strict default = some value) :
    field filled key loose default = some value := by
  apply field_of_written isFilled found reads looser _ known
  intro other value read
  show loose (leaf.overlay other) = some value
  rw [Setting.overlay_of_leaf isLeaf]
  exact looser other value read

end Fields

/-! ## Readers of sections -/

/-- What is read from the members of a section is read from them loosely too. Only the members with
foreign names are treated differently, and an exact reading that succeeds has met none. -/
theorem bind_sectionMembers_of_exact {α : Type} {names : List String} {setting : Setting}
    {rest : List (String × Setting) → Option α} {value : α}
    (read : (sectionMembers true names setting).bind rest = some value) :
    (sectionMembers false names setting).bind rest = some value := by
  obtain ⟨members, listed, made⟩ := Option.bind_eq_some_iff.mp read
  refine Option.bind_eq_some_iff.mpr ⟨members, ?_, made⟩
  unfold sectionMembers at listed ⊢
  split at listed
  · exact listed
  · split at listed
    · cases listed
    · exact listed
  · cases listed

/-- Each reader of a section takes more in its lenient form, which the layers use, than in its
strict one, and reads the same where both read. -/
theorem readStable_looser : IsLooser (readStable true) (readStable false) :=
  fun _ _ read => bind_sectionMembers_of_exact read

/-- The same for the settings of the printer. -/
theorem readFinish_looser : IsLooser (readFinish true) (readFinish false) :=
  fun _ _ read => bind_sectionMembers_of_exact read

/-- The same for the boost. -/
theorem readBoost_looser : IsLooser (readBoost true) (readBoost false) :=
  fun _ _ read => bind_sectionMembers_of_exact read

/-- The names of modes are read alike in both ways, apart from their case. -/
theorem readMode_looser : IsLooser (readMode true) (readMode false) := by
  intro setting mode read
  unfold readMode at read ⊢
  split at read
  · exact read
  · split at read
    · cases read
    · exact read
  · cases read

/-- The settings of the loader are read field by field, and each field is read in the looser way. -/
theorem readLoader_looser : IsLooser (readLoader true) (readLoader false) := by
  intro setting settings read
  have loose := bind_sectionMembers_of_exact read
  simp only [readLoader, Option.bind_eq_bind, Option.bind_eq_some_iff] at loose ⊢
  obtain ⟨members, listed, exportName, exportNameRead, mode, modeRead, made⟩ := loose
  refine ⟨members, listed, exportName, exportNameRead, mode, ?_, made⟩
  unfold field at modeRead ⊢
  split at modeRead
  · exact readMode_looser _ mode modeRead
  · exact modeRead

/-- Settings that are laid on the defaults are read as they are: what they leave out is the default
in both. -/
theorem readStable_overlay : IsLooser (readStable true) fun upper =>
    readStable false ((Setting.ofJson ({} : StableSettings).toJson).overlay upper) := by
  intro upper settings read
  simp only [readStable, Option.bind_eq_bind, Option.bind_eq_some_iff] at read ⊢
  obtain ⟨members, listed, enabled, enabledRead, space, spaceRead, included, includedRead,
    excluded, excludedRead, made⟩ := read
  obtain ⟨filled, filledListed, isFilled⟩ := exists_filled [("enabled", .flag false)] listed
  -- Of the fields only the first one has a written default.
  have optional : ∀ {key value}, Setting.member? [("enabled", .flag false)] key = none →
      field members key (readOptional readText) none = some value →
      field filled key (readOptional readText) none = some value :=
    fun unset => field_of_unset isFilled unset (.refl _)
  refine ⟨filled, filledListed, enabled, ?_, space, optional rfl spaceRead, included,
    optional rfl includedRead, excluded, optional rfl excludedRead, made⟩
  exact field_of_leaf isFilled rfl rfl (fun _ same => by cases same) (.refl _) enabledRead

/-- The same for the settings of the last step. -/
theorem readFinish_overlay : IsLooser (readFinish true) fun upper =>
    readFinish false ((Setting.ofJson ({} : FinishSettings).toJson).overlay upper) := by
  intro upper settings read
  simp only [readFinish, Option.bind_eq_bind, Option.bind_eq_some_iff] at read ⊢
  obtain ⟨members, listed, enabled, enabledRead, minify, minifyRead, modules, modulesRead, made⟩ :=
    read
  obtain ⟨filled, filledListed, isFilled⟩ := exists_filled (Setting.ofMembers _) listed
  refine ⟨filled, filledListed, enabled, ?_, minify, ?_, modules, ?_, made⟩
  · exact field_of_leaf isFilled rfl rfl (fun _ same => by cases same) (.refl _) enabledRead
  · exact field_of_leaf isFilled rfl rfl (fun _ same => by cases same) (.refl _) minifyRead
  · exact field_of_leaf isFilled rfl rfl (fun _ same => by cases same) (.refl _) modulesRead

/-- The same for the settings of the loader. -/
theorem readLoader_overlay : IsLooser (readLoader true) fun upper =>
    readLoader false ((Setting.ofJson ({} : LoaderSettings).toJson).overlay upper) := by
  intro upper settings read
  simp only [readLoader, Option.bind_eq_bind, Option.bind_eq_some_iff] at read ⊢
  obtain ⟨members, listed, exportName, exportNameRead, mode, modeRead, made⟩ := read
  obtain ⟨filled, filledListed, isFilled⟩ := exists_filled (Setting.ofMembers _) listed
  refine ⟨filled, filledListed, exportName, ?_, mode, ?_, made⟩
  · exact field_of_leaf isFilled rfl rfl (fun _ same => by cases same) (.refl _) exportNameRead
  · exact field_of_leaf isFilled rfl rfl (fun _ same => by cases same) readMode_looser modeRead

/-! ## Configurations over the defaults -/

/-- **What is a configuration by itself is that configuration over the defaults too.** Section by
section: what the defaults fill in is what reading the section alone assumes for a missing member.
-/
theorem ofLayers?_of_ofJson? {json : Json} {config : Config} (read : ofJson? json = some config) :
    ofLayers? [Setting.ofJson json] = some config := by
  simp only [ofJson?, ofSetting?, Option.bind_eq_bind, Option.bind_eq_some_iff] at read
  obtain ⟨members, listed, cwd, cwdRead, extensions, extensionsRead, aliases, aliasesRead, stable,
    stableRead, finish, finishRead, boost, boostRead, loader, loaderRead, made⟩ := read
  obtain ⟨filled, filledListed, isFilled⟩ := exists_filled (Setting.ofMembers _) listed
  simp only [ofLayers?, List.foldl_cons, List.foldl_nil, ofSetting?, Option.bind_eq_bind,
    Option.bind_eq_some_iff]
  refine ⟨filled, filledListed, cwd, ?_, extensions, ?_, aliases, ?_, stable, ?_, finish, ?_,
    boost, ?_, loader, ?_, made⟩
  · exact field_of_unset isFilled rfl (.refl _) cwdRead
  · exact field_of_leaf isFilled rfl rfl (fun _ same => by cases same) (.refl _) extensionsRead
  · exact field_of_leaf isFilled rfl rfl (fun _ same => by cases same) (.refl _) aliasesRead
  · exact field_of_written isFilled rfl (readStable_toJson false {}) readStable_looser
      readStable_overlay stableRead
  · exact field_of_written isFilled rfl (readFinish_toJson false {}) readFinish_looser
      readFinish_overlay finishRead
  · exact field_of_unset isFilled rfl readBoost_looser.optional boostRead
  · exact field_of_written isFilled rfl (readLoader_toJson false {}) readLoader_looser
      readLoader_overlay loaderRead

/-- An empty layer at the top counts for nothing. -/
theorem ofLayers?_append_empty (members : List (String × Json)) :
    ofLayers? [Setting.ofJson (.obj members), .table []] =
      ofLayers? [Setting.ofJson (.obj members)] := by
  obtain ⟨filled, eq, -⟩ :=
    Setting.exists_overlay_eq (Setting.ofMembers _) (Setting.ofMembers members)
  have same : (Setting.ofJson ({} : Config).toJson).overlay (Setting.ofJson (.obj members)) =
      .table filled := eq
  simp only [ofLayers?, List.foldl_cons, List.foldl_nil, same, Setting.overlay_empty]

/-! ## Packages -/

/-- A variable whose name does not begin as those of settings do. Blanks around the name and letter
case do not count. -/
def Environment.IsForeign (name : String) : Prop :=
  ¬ namePrefix.toList <+: (Text.trim name.toList).map Char.toLower

/-- A variable without the prefix says nothing about settings. -/
theorem Environment.pathOf?_of_foreign {name : String} (foreign : IsForeign name) :
    pathOf? name = none := by
  have other : Text.stripStart? namePrefix.toList ((Text.trim name.toList).map Char.toLower) =
      none := by
    apply Option.eq_none_iff_forall_not_mem.mpr
    intro rest stripped
    exact foreign ⟨rest, (Text.eq_append_of_stripStart? stripped).symm⟩
  simp only [pathOf?, other, Option.bind_eq_bind, Option.bind_none]

/-- Variables of other programs make an empty layer. -/
theorem Environment.layer_of_foreign {environment : List (String × String)}
    (foreign : ∀ entry ∈ environment, IsForeign entry.1) : layer environment = .table [] := by
  unfold layer
  refine List.foldlRecOn environment _ (motive := (· = Setting.table [])) rfl ?_
  intro settings held entry mem
  have passed : pathOf? entry.1 = none := pathOf?_of_foreign (foreign entry mem)
  dsimp only
  rw [passed]
  exact held

/-- **A configuration in the description of a package.** If the JSON value that a package has there
is a configuration by itself, and nothing is set in a file or in the environment, then that
configuration is loaded, whether or not there has to be one. -/
theorem load_package {tree : FileTree} {environment : List (String × String)}
    {directory text : String} {package : Json} {members : List (String × Json)} {config : Config}
    (noFile : tree.isFile (Path.join directory fileName) = false)
    (described : tree.readText (Path.join directory packageFileName) = .ok text)
    (parsed : Json.parse text = .ok package)
    (has : package.field? packageField = some (.obj members))
    (foreign : ∀ entry ∈ environment, Environment.IsForeign entry.1)
    (read : ofJson? (.obj members) = some config) :
    load tree environment directory = .ok config ∧
      loadOrDefault tree environment directory = .ok config := by
  have setting : packageSetting? text = some (.obj members) := by
    simp only [packageSetting?, parsed, has, Json.isNull, Bool.false_eq_true, if_false]
  have source : find? tree directory =
      some (.package (Path.join directory packageFileName)) := by
    simp only [find?, noFile, described, setting, Bool.false_eq_true, if_false, Option.map_some]
  have layer : packageLayer tree (Path.join directory packageFileName) =
      .ok (Setting.ofJson (.obj members)) := by
    simp only [packageLayer, described, parsed, setting, Setting.ofJson]
  -- below the package there is only the empty layer of an environment without variables
  have layers : ofLayers? [Setting.ofJson (.obj members), .table []] = some config := by
    rw [ofLayers?_append_empty]
    exact ofLayers?_of_ofJson? read
  have loaded : layered tree environment
      (some (.package (Path.join directory packageFileName))) = .ok config := by
    simp only [layered, layer, Except.map, Environment.layer_of_foreign foreign, bind, Except.bind,
      List.singleton_append, layers]
  constructor
  · rw [load, source]
    exact loaded
  · rw [loadOrDefault, source]
    exact loaded

/-- A configuration that leaves out fields and sections, sets one to nothing, and has a section that
is a list. -/
private def sparse : List (String × Json) :=
  [("cwd", .null), ("auto_stable", .arr [.bool true]), ("loader", .obj [("mode", .str "bridge")])]

/-- The same configuration. -/
private def sparseConfig : Config :=
  { stable := { enabled := true }, loader := { mode := .bridge } }

/-- A package that has nothing but the configuration. -/
private def sparsePackage : Json := .obj [(packageField, .obj sparse)]

/-- The description of the package. -/
private def sparseText : String :=
  "\x7b\"knightedCss\":\x7b\"cwd\":null,\"auto_stable\":[true],\"loader\":\x7b\"mode\":\"bridge\"\x7d\x7d\x7d"

/-- The package in a project. -/
private def sparseTree : FileTree := { files := [(["app", "package.json"], .text sparseText)] }

/-- A package file with some settings and an environment with foreign variables. -/
theorem load_package_sparse :
    sparseTree.isFile (Path.join "/app" fileName) = false ∧
      sparseTree.readText (Path.join "/app" packageFileName) = .ok sparseText ∧
      Json.parse sparseText = .ok sparsePackage ∧
      sparsePackage.field? packageField = some (.obj sparse) ∧
      (∀ entry ∈ [("HOME", "/root"), ("KNIGHTED", "1")], Environment.IsForeign entry.1) ∧
      ofJson? (.obj sparse) = some sparseConfig ∧
      load sparseTree [("HOME", "/root"), ("KNIGHTED", "1")] "/app" = .ok sparseConfig ∧
      loadOrDefault sparseTree [("HOME", "/root"), ("KNIGHTED", "1")] "/app" =
        .ok sparseConfig := by
  have noFile : sparseTree.isFile (Path.join "/app" fileName) = false := by decide +kernel
  have described : sparseTree.readText (Path.join "/app" packageFileName) = .ok sparseText := rfl
  have parsed : Json.parse sparseText = .ok sparsePackage := by cbv
  have has : sparsePackage.field? packageField = some (.obj sparse) := rfl
  have foreign : ∀ entry ∈ [("HOME", "/root"), ("KNIGHTED", "1")],
      Environment.IsForeign entry.1 := by
    unfold Environment.IsForeign
    decide +kernel
  have read : ofJson? (.obj sparse) = some sparseConfig := by decide +kernel
  exact ⟨noFile, described, parsed, has, foreign, read,
    load_package noFile described parsed has foreign read⟩

end StyleGraph.Config
