import StyleGraph.Config.Basic
import StyleGraph.Proofs.Text.Blank

/-!
# Configurations that are written and read again

A configuration that was read from JSON is written as JSON that is read as the same configuration
(`ofJson?_toJson`).

Not every configuration is: a path can be ` off `, and a count can be too large for a number of 64
bits. The two conditions are `IsReadable`, and what was read from JSON meets them. Elsewhere reading
depends on the lookups of keys only, so each section has a lemma on the tables that hold its written
form under its keys.
-/

set_option autoImplicit false

namespace StyleGraph

open Resolve (AliasMode)

namespace Resolve.AliasMode

/-- Blanks around the written form of a mode do not count. -/
theorem ofText?_trimmed (text : String) : ofText? (Text.trimmed text) = ofText? text := by
  rw [ofText?, Text.trimmed_trimmed, ofText?]

/-- **A mode is read from its written form**, whatever form it was read from first. -/
theorem ofText?_text {text : String} {mode : AliasMode} (read : ofText? text = some mode) :
    ofText? mode.text = some mode := by
  have again := (ofText?_trimmed text).trans read
  unfold ofText? at read
  split at read
  · cases read
  · cases read
    rfl
  · cases read
    rfl
  · cases read
    rfl
  · cases read
    rfl
  · -- A path was trimmed when it was read, so it is read as it stands.
    cases read
    exact again

end Resolve.AliasMode

namespace Config

namespace Setting

/-! ## Settings from JSON -/

/-- How each kind of value is seen by the reader of configurations, one equation for each. -/
@[simp]
theorem ofJson_bool (value : Bool) : ofJson (.bool value) = .flag value := rfl

/-- Integers count as whole only in the range of the counts. The rest are read as fractions, which
every count refuses. -/
@[simp]
theorem ofJson_int (value : Int) :
    ofJson (.int value) = if isWhole value then .whole value else .fraction := rfl

/-- Texts are kept. -/
@[simp]
theorem ofJson_str (value : String) : ofJson (.str value) = .text value := rfl

/-- Lists are seen item by item. -/
@[simp]
theorem ofJson_arr (items : List Json) : ofJson (.arr items) = .list (ofItems items) := rfl

/-- Objects are seen member by member. -/
@[simp]
theorem ofJson_obj (members : List (String × Json)) :
    ofJson (.obj members) = .table (ofMembers members) := rfl

/-! ## Members -/

/-- Of several members with one name the last one counts, as in the reader. -/
theorem member?_cons (member : String × Setting) (rest : List (String × Setting)) (key : String) :
    member? (member :: rest) key = if member.1 = key then some member.2 else member? rest key := by
  unfold member?
  rw [List.find?_cons]
  by_cases same : member.1 = key <;> simp [same]

/-- An empty object has no member. -/
@[simp]
theorem member?_ofMembers_nil (key : String) : member? (ofMembers []) key = none := rfl

/-- Of two members with one key the later counts. So the table that a list of members becomes is
known by induction on the list. -/
@[simp]
theorem member?_ofMembers_cons (member : String × Json) (rest : List (String × Json))
    (key : String) : member? (ofMembers (member :: rest)) key =
      (member? (ofMembers rest) key).or
        (if member.1 = key then some (ofJson member.2) else none) := by
  obtain ⟨name, value⟩ := member
  rw [ofMembers]
  by_cases same : name = key
  · subst same
    cases known : member? (ofMembers rest) name with
    | some setting => simp [known]
    | none => simp [member?_cons]
  · cases member? (ofMembers rest) name with
    | some setting => simp [same]
    | none => simp [member?_cons, same]

/-- Members further behind have precedence. -/
@[simp]
theorem member?_ofMembers_append (first rest : List (String × Json)) (key : String) :
    member? (ofMembers (first ++ rest)) key =
      (member? (ofMembers rest) key).or (member? (ofMembers first) key) := by
  induction first with
  | nil => simp
  | cons member first ih =>
    rw [List.cons_append, member?_ofMembers_cons, ih, member?_ofMembers_cons, Option.or_assoc]

/-- A member that is missing when its value is. -/
@[simp]
theorem member?_ofMembers_option {α : Type} (name key : String) (value : Option α)
    (write : α → Json) : member? (ofMembers (value.map fun x => (name, write x)).toList) key =
      if name = key then value.map fun x => ofJson (write x) else none := by
  cases value <;> simp

/-- A list is read item by item. -/
theorem ofItems_eq_map (items : List Json) : ofItems items = items.map ofJson := by
  induction items with
  | nil => rfl
  | cons item items ih => rw [ofItems, ih, List.map_cons]

/-- What a table made from JSON holds was made from JSON. -/
theorem exists_of_mem_ofMembers {members : List (String × Json)} {member : String × Setting}
    (held : member ∈ ofMembers members) : ∃ json, member.2 = ofJson json := by
  induction members with
  | nil => cases held
  | cons first rest ih =>
    obtain ⟨key, value⟩ := first
    rw [ofMembers] at held
    split at held
    · exact ih held
    · rcases List.mem_cons.mp held with rfl | later
      · exact ⟨value, rfl⟩
      · exact ih later

/-- A member that is found is one of the members. -/
theorem mem_of_member? {members : List (String × Setting)} {key : String} {setting : Setting}
    (found : member? members key = some setting) : ∃ name, (name, setting) ∈ members := by
  obtain ⟨⟨name, value⟩, held, rfl⟩ := Option.map_eq_some_iff.mp found
  exact ⟨name, List.mem_of_find?_eq_some held⟩

end Setting

/-! ## Fields -/

section Fields

variable {α : Type} {members : List (String × Setting)} {key : String}
  {read : Setting → Option α} {default : α}

/-- A field that is there is read, and its default is not looked at. -/
theorem field_of_member {setting : Setting} (found : Setting.member? members key = some setting) :
    field members key read default = read setting := by
  rw [field, found]

/-- An optional field that is missing when its value is. The written form of a value is never
`null`, since `null` is not read. -/
theorem field_of_optional {value : Option α} {write : α → Setting}
    (found : Setting.member? members key = value.map write)
    (reads : ∀ x, value = some x → read (write x) = some x) (refuses : read .null = none) :
    field members key (readOptional read) none = some value := by
  cases value with
  | none => rw [field, found]; rfl
  | some x =>
    rw [field_of_member found]
    have written := reads x rfl
    unfold readOptional
    split
    next null =>
      rw [null, refuses] at written
      cases written
    next => rw [written]; rfl

end Fields

/-- A list of texts is read as it is. -/
theorem readTexts_map (texts : List String) :
    readTexts (.list (texts.map .text)) = some texts := by
  induction texts with
  | nil => rfl
  | cons text texts ih =>
    rw [readTexts] at ih
    rw [readTexts, List.map_cons, List.mapM_cons, ih]
    rfl

/-! ## Sections -/

section Sections

variable (exact : Bool) {members : List (String × Setting)}

/-- The settings of stable variants, as a table of them holds them. -/
theorem readStable_table {settings : StableSettings}
    (enabled : Setting.member? members "enabled" = some (.flag settings.enabled))
    (space : Setting.member? members "namespace" = settings.space.map .text)
    (included : Setting.member? members "include" = settings.included.map .text)
    (excluded : Setting.member? members "exclude" = settings.excluded.map .text) :
    readStable exact (.table members) = some settings := by
  have optional : ∀ {key value}, Setting.member? members key = Option.map Setting.text value →
      field members key (readOptional readText) none = some value :=
    fun found => field_of_optional found (fun _ _ => rfl) rfl
  simp only [readStable, sectionMembers, Option.bind_eq_bind, Option.bind_some,
    field_of_member enabled, readFlag, optional space, optional included, optional excluded]

/-- The settings of finishing a sheet. -/
theorem readFinish_table {settings : FinishSettings}
    (enabled : Setting.member? members "enabled" = some (.flag settings.enabled))
    (minify : Setting.member? members "minify" = some (.flag settings.minify))
    (modules : Setting.member? members "css_modules" = some (.flag settings.modules)) :
    readFinish exact (.table members) = some settings := by
  simp only [readFinish, sectionMembers, Option.bind_eq_bind, Option.bind_some,
    field_of_member enabled, field_of_member minify, field_of_member modules, readFlag]

/-- The settings of boosting. -/
theorem readBoost_table {settings : BoostSettings}
    (times : Setting.member? members "times" = some (.whole settings.times))
    (patterns : Setting.member? members "match" =
      some (.list (settings.patterns.map .text))) :
    readBoost exact (.table members) = some settings := by
  have counted : readCount (.whole settings.times) = some settings.times := by
    rw [readCount, if_neg (by omega), Int.toNat_natCast]
  simp only [readBoost, sectionMembers, Option.bind_eq_bind, Option.bind_some,
    field_of_member times, field_of_member patterns, counted, readTexts_map]

/-- The settings of a loader. -/
theorem readLoader_table {settings : LoaderSettings}
    (exportName : Setting.member? members "export_name" = some (.text settings.exportName))
    (mode : Setting.member? members "mode" = some (.text settings.mode.name)) :
    readLoader exact (.table members) = some settings := by
  have named : readMode exact (.text settings.mode.name) = some settings.mode := by
    cases settings.mode <;> rfl
  simp only [readLoader, sectionMembers, Option.bind_eq_bind, Option.bind_some,
    field_of_member exportName, field_of_member mode, readText, named]

end Sections

/-! ## Written forms -/

section Written

variable (exact : Bool)

/-- A member that may be left out is found under its name only. -/
@[simp]
theorem member?_textMember (name key : String) (value : Option String) :
    Setting.member? (Setting.ofMembers (textMember name value)) key =
      if name = key then value.map .text else none := by
  rw [textMember, Setting.member?_ofMembers_option]
  rfl

/-- Texts are written as a list of texts. -/
@[simp]
theorem ofJson_textsJson (texts : List String) :
    Setting.ofJson (textsJson texts) = .list (texts.map .text) := by
  rw [textsJson, Setting.ofJson_arr, Setting.ofItems_eq_map, List.map_map]
  congr 1

/-- The settings of stable selectors are read back from what is written for them. -/
theorem readStable_toJson (settings : StableSettings) :
    readStable exact (Setting.ofJson settings.toJson) = some settings := by
  rw [StableSettings.toJson, Setting.ofJson_obj]
  apply readStable_table <;> simp

/-- So are those of the last step. -/
theorem readFinish_toJson (settings : FinishSettings) :
    readFinish exact (Setting.ofJson settings.toJson) = some settings := by
  rw [FinishSettings.toJson, Setting.ofJson_obj]
  apply readFinish_table <;> simp

/-- So are those of the boost, if the count is a machine word. -/
theorem readBoost_toJson {settings : BoostSettings} (counts : settings.times < Number.twoTo 64) :
    readBoost exact (Setting.ofJson settings.toJson) = some settings := by
  have whole : Setting.isWhole settings.times = true := by
    rw [Setting.isWhole, Bool.and_eq_true, decide_eq_true_eq, decide_eq_true_eq]
    omega
  rw [BoostSettings.toJson, Setting.ofJson_obj]
  apply readBoost_table <;> simp [whole]

/-- So are those of the loader. -/
theorem readLoader_toJson (settings : LoaderSettings) :
    readLoader exact (Setting.ofJson settings.toJson) = some settings := by
  rw [LoaderSettings.toJson, Setting.ofJson_obj]
  apply readLoader_table <;> simp

end Written

/-! ## Configurations -/

/-- **What a configuration needs to be read from its written form.** A path has no blanks around it
and is not the name of a mode, and a count takes 64 bits. -/
structure IsReadable (config : Config) : Prop where
  aliases : AliasMode.ofText? config.aliases.text = some config.aliases
  counts : ∀ boost, config.boost = some boost → boost.times < Number.twoTo 64

/-- A configuration, as a table of it holds its sections. Each section is asked for its written form
only, so the order of the members does not count, and a section can change without the others. -/
theorem ofSetting?_table (exact : Bool) {config : Config} (readable : config.IsReadable)
    {members : List (String × Setting)} {stable finish loader : Setting}
    (cwd : Setting.member? members "cwd" = config.cwd.map .text)
    (extensions : Setting.member? members "extensions" =
      some (.list (config.extensions.map .text)))
    (aliases : Setting.member? members "tsconfig" = some (.text config.aliases.text))
    (stableFound : Setting.member? members "auto_stable" = some stable)
    (stableReads : readStable exact stable = some config.stable)
    (finishFound : Setting.member? members "lightningcss" = some finish)
    (finishReads : readFinish exact finish = some config.finish)
    (boost : Setting.member? members "specificity_boost" =
      config.boost.map fun boost => Setting.ofJson boost.toJson)
    (loaderFound : Setting.member? members "loader" = some loader)
    (loaderReads : readLoader exact loader = some config.loader) :
    ofSetting? exact (.table members) = some config := by
  have cwdReads : field members "cwd" (readOptional readText) none = some config.cwd :=
    field_of_optional cwd (fun _ _ => rfl) rfl
  have boostReads : field members "specificity_boost" (readOptional (readBoost exact)) none =
      some config.boost :=
    field_of_optional boost (fun value set => readBoost_toJson exact (readable.counts value set))
      rfl
  have aliasesRead : readAliases (.text config.aliases.text) = some config.aliases := by
    rw [readAliases, readText, Option.bind_eq_bind, Option.bind_some, readable.aliases]
  simp only [ofSetting?, sectionMembers, Option.bind_eq_bind, Option.bind_some, cwdReads,
    field_of_member extensions, readTexts_map, field_of_member aliases, aliasesRead,
    field_of_member stableFound, stableReads, field_of_member finishFound, finishReads,
    boostReads, field_of_member loaderFound, loaderReads]

/-- **A whole configuration is read back** from what is written for it, whether names of modes must
be exact or not. -/
theorem ofSetting?_toJson (exact : Bool) {config : Config} (readable : config.IsReadable) :
    ofSetting? exact (Setting.ofJson config.toJson) = some config := by
  rw [toJson, Setting.ofJson_obj]
  refine ofSetting?_table exact readable ?_ ?_ ?_ ?_ (readStable_toJson exact config.stable) ?_
    (readFinish_toJson exact config.finish) ?_ ?_ (readLoader_toJson exact config.loader) <;>
    simp

/-! ## Configurations that were read -/

/-- The members of a section made from JSON were made from JSON. This is what lets a section be read
back: a value that is no JSON has no written form. -/
theorem exists_of_sectionMembers {exact : Bool} {names : List String} {json : Json}
    {members : List (String × Setting)}
    (read : sectionMembers exact names (Setting.ofJson json) = some members)
    {key : String} {setting : Setting} (found : Setting.member? members key = some setting) :
    ∃ value, setting = Setting.ofJson value := by
  obtain ⟨name, held⟩ := Setting.mem_of_member? found
  cases json with
  | obj written =>
    rw [Setting.ofJson_obj, sectionMembers, Option.some.injEq] at read
    subst read
    exact Setting.exists_of_mem_ofMembers held
  | arr items =>
    rw [Setting.ofJson_arr, sectionMembers] at read
    split at read
    · cases read
    · cases read
      have item := (List.of_mem_zip held).2
      rw [Setting.ofItems_eq_map] at item
      obtain ⟨value, -, rfl⟩ := List.mem_map.mp item
      exact ⟨value, rfl⟩
  | int value =>
    rw [Setting.ofJson_int] at read
    split at read <;> cases read
  | null => cases read
  | bool => cases read
  | decimal => cases read
  | str => cases read

/-- A field was read from a member, or is the default. -/
theorem member_or_default_of_field {α : Type} {members : List (String × Setting)} {key : String}
    {read : Setting → Option α} {default value : α}
    (known : field members key read default = some value) :
    (∃ setting, Setting.member? members key = some setting ∧ read setting = some value) ∨
      value = default := by
  unfold field at known
  split at known
  next setting found => exact .inl ⟨setting, found, known⟩
  next => exact .inr (Option.some.inj known).symm

/-- A count that is read is a machine word. Numbers beyond that are decimals when they are read, and
a decimal is no count. -/
theorem lt_of_readCount {json : Json} {n : Nat}
    (read : readCount (Setting.ofJson json) = some n) : n < Number.twoTo 64 := by
  cases json with
  | int value =>
    rw [Setting.ofJson_int] at read
    split at read
    next whole =>
      rw [readCount] at read
      split at read
      next => cases read
      next positive =>
        cases read
        have bound := of_decide_eq_true (Bool.and_eq_true_iff.mp whole).2
        omega
    next => cases read
  | null => cases read
  | bool => cases read
  | decimal => cases read
  | str => cases read
  | arr => cases read
  | obj => cases read

/-- So is that of a boost. Nothing else bounds it. -/
theorem lt_of_readBoost {exact : Bool} {json : Json} {settings : BoostSettings}
    (read : readBoost exact (Setting.ofJson json) = some settings) :
    settings.times < Number.twoTo 64 := by
  simp only [readBoost, Option.bind_eq_bind, Option.bind_eq_some_iff] at read
  obtain ⟨members, listed, times, timesRead, patterns, patternsRead, made⟩ := read
  cases made
  rcases member_or_default_of_field timesRead with ⟨setting, found, counted⟩ | rfl
  · obtain ⟨value, rfl⟩ := exists_of_sectionMembers listed found
    exact lt_of_readCount counted
  · show 1 < Number.twoTo 64
    decide

/-- **What is read from JSON is read from its written form.** The conditions on what can be written
are exactly those that the reader has checked already, one section after the other. -/
theorem isReadable_of_ofJson? {json : Json} {config : Config}
    (read : ofJson? json = some config) : config.IsReadable := by
  simp only [ofJson?, ofSetting?, Option.bind_eq_bind, Option.bind_eq_some_iff] at read
  obtain ⟨members, listed, cwd, -, extensions, -, aliases, aliasesRead, stable, -, finish, -,
    boost, boostRead, loader, -, made⟩ := read
  cases made
  constructor
  · rcases member_or_default_of_field aliasesRead with ⟨setting, -, known⟩ | rfl
    · obtain ⟨text, -, mode⟩ := Option.bind_eq_some_iff.mp known
      exact AliasMode.ofText?_text mode
    · show AliasMode.ofText? AliasMode.off.text = some .off
      rfl
  · rintro settings rfl
    rcases member_or_default_of_field boostRead with ⟨setting, found, known⟩ | unset
    · obtain ⟨value, rfl⟩ := exists_of_sectionMembers listed found
      unfold readOptional at known
      split at known
      · cases known
      · obtain ⟨_, boosted, same⟩ := Option.map_eq_some_iff.mp known
        cases same
        exact lt_of_readBoost boosted
    · cases unset

/-- **A configuration that was read is read from its written form**, whichever form it was read
from first. -/
theorem ofJson?_toJson {json : Json} {config : Config} (read : ofJson? json = some config) :
    ofJson? config.toJson = some config :=
  ofSetting?_toJson true (isReadable_of_ofJson? read)

/-- A configuration with blanks around a path, a section that is a list, a mode that is a table and
fields and sections that are left out. -/
private def loose : Json :=
  .obj [("tsconfig", .str " config/true\n"), ("cwd", .null),
    ("auto_stable", .arr [.bool true, .null, .str "^card"]),
    ("specificity_boost", .obj [("match", .arr [.str "card"])]),
    ("loader", .obj [("mode", .obj [("bridge", .null)])])]

/-- The same configuration. -/
private def looseConfig : Config :=
  { aliases := .file "config/true",
    stable := { enabled := true, included := some "^card" },
    boost := some { times := 1, patterns := ["card"] },
    loader := { mode := .bridge } }

/-- A configuration with other spellings and fields that are left out. -/
theorem ofJson?_toJson_loose :
    ofJson? loose = some looseConfig ∧ ofJson? looseConfig.toJson = some looseConfig :=
  have read : ofJson? loose = some looseConfig := by decide +kernel
  ⟨read, ofJson?_toJson read⟩

end Config

end StyleGraph
