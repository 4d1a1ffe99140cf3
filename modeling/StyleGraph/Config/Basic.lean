import StyleGraph.Config.Setting
import StyleGraph.Resolve.TsConfig
import StyleGraph.Stable.Token

/-!
# Configurations

A configuration is read from settings and written as JSON. A section may also be a list of its
values in the order of its fields. A field that is missing has its default.
-/

set_option autoImplicit false

namespace StyleGraph

open Resolve (AliasMode)

namespace Config

/-- The settings of stable variants. -/
structure StableSettings where
  enabled : Bool := false
  /-- The namespace, if it is not the default one. -/
  space : Option String := none
  /-- The pattern of the classes that get stable variants. -/
  included : Option String := none
  /-- The pattern of the classes that get none. -/
  excluded : Option String := none
  deriving DecidableEq, Repr, Inhabited

/-- The settings of finishing a sheet. -/
structure FinishSettings where
  enabled : Bool := false
  minify : Bool := false
  /-- Whether names are local to the sheet. -/
  modules : Bool := false
  deriving DecidableEq, Repr, Inhabited

/-- The settings of boosting. -/
structure BoostSettings where
  times : Nat := 1
  patterns : List String := []
  deriving DecidableEq, Repr, Inhabited

/-- How a loader makes modules. -/
inductive LoaderMode
  | standard
  /-- Local names are left to the bundler. -/
  | bridge
  deriving DecidableEq, Repr, Inhabited

/-- The written form of a mode. -/
def LoaderMode.name : LoaderMode → String
  | .standard => "standard"
  | .bridge => "bridge"

/-- The mode with a written form. -/
def LoaderMode.ofName? (name : String) : Option LoaderMode :=
  [LoaderMode.standard, .bridge].find? fun mode => mode.name = name

/-- The name of the export with the text of a sheet, unless another is set. -/
def defaultExportName : String := "knightedCss"

/-- The settings of a loader. -/
structure LoaderSettings where
  exportName : String := defaultExportName
  mode : LoaderMode := .standard
  deriving DecidableEq, Repr, Inhabited

end Config

/-- A configuration. -/
structure Config where
  /-- The working directory, if one is set. -/
  cwd : Option String := none
  /-- The extensions that are tried when specifiers are resolved; none are the default ones. -/
  extensions : List String := []
  aliases : AliasMode := .off
  stable : Config.StableSettings := {}
  finish : Config.FinishSettings := {}
  boost : Option Config.BoostSettings := none
  loader : Config.LoaderSettings := {}
  deriving DecidableEq, Repr, Inhabited

namespace Config

/-- The namespace of stable classes. -/
def space (config : Config) : String := config.stable.space.getD Stable.defaultNamespace

/-! ## Writing -/

/-- An optional text as a member that is missing when the text is. -/
def textMember (key : String) (value : Option String) : List (String × Json) :=
  (value.map fun text => (key, Json.str text)).toList

/-- The written form of texts. -/
def textsJson (texts : List String) : Json := .arr (texts.map Json.str)

/-- The written form of the settings of stable variants. -/
def StableSettings.toJson (settings : StableSettings) : Json :=
  .obj (("enabled", .bool settings.enabled) :: textMember "namespace" settings.space ++
    textMember "include" settings.included ++ textMember "exclude" settings.excluded)

/-- The written form of the settings of finishing a sheet. -/
def FinishSettings.toJson (settings : FinishSettings) : Json :=
  .obj [("enabled", .bool settings.enabled), ("minify", .bool settings.minify),
    ("css_modules", .bool settings.modules)]

/-- The written form of the settings of boosting. -/
def BoostSettings.toJson (settings : BoostSettings) : Json :=
  .obj [("times", .int settings.times), ("match", textsJson settings.patterns)]

/-- The written form of the settings of a loader. -/
def LoaderSettings.toJson (settings : LoaderSettings) : Json :=
  .obj [("export_name", .str settings.exportName), ("mode", .str settings.mode.name)]

/-- The written form of a configuration. What is not set and has no default is left out. -/
def toJson (config : Config) : Json :=
  .obj (textMember "cwd" config.cwd ++
    [("extensions", textsJson config.extensions), ("tsconfig", .str config.aliases.text),
      ("auto_stable", config.stable.toJson), ("lightningcss", config.finish.toJson)] ++
    (config.boost.map fun boost => ("specificity_boost", boost.toJson)).toList ++
    [("loader", config.loader.toJson)])

/-! ## Reading -/

/-- A truth value. -/
def readFlag : Setting → Option Bool
  | .flag value => some value
  | _ => none

/-- A text. -/
def readText : Setting → Option String
  | .text value => some value
  | _ => none

/-- A number that can count. -/
def readCount : Setting → Option Nat
  | .whole value => if value < 0 then none else some value.toNat
  | _ => none

/-- A list of texts. -/
def readTexts : Setting → Option (List String)
  | .list items => items.mapM readText
  | _ => none

/-- What may be `null`, which is the same as nothing. -/
def readOptional {α : Type} (read : Setting → Option α) : Setting → Option (Option α)
  | .null => some none
  | setting => (read setting).map some

/-- A source of path aliases. -/
def readAliases (setting : Setting) : Option AliasMode := do AliasMode.ofText? (← readText setting)

/-- A section as a table. With `exact` a list has no more items than the section has fields. -/
def sectionMembers (exact : Bool) (fields : List String) : Setting → Option (List (String × Setting))
  | .table members => some members
  | .list items =>
    if exact && items.length > fields.length then none else some (fields.zip items)
  | _ => none

/-- A field of a section, or its default. -/
def field {α : Type} (members : List (String × Setting)) (key : String)
    (read : Setting → Option α) (default : α) : Option α :=
  match Setting.member? members key with
  | some setting => read setting
  | none => some default

/-- The settings of stable variants. -/
def readStable (exact : Bool) (setting : Setting) : Option StableSettings := do
  let members ← sectionMembers exact ["enabled", "namespace", "include", "exclude"] setting
  let enabled ← field members "enabled" readFlag false
  let space ← field members "namespace" (readOptional readText) none
  let included ← field members "include" (readOptional readText) none
  let excluded ← field members "exclude" (readOptional readText) none
  some { enabled, space, included, excluded }

/-- The settings of finishing a sheet. -/
def readFinish (exact : Bool) (setting : Setting) : Option FinishSettings := do
  let members ← sectionMembers exact ["enabled", "minify", "css_modules"] setting
  let enabled ← field members "enabled" readFlag false
  let minify ← field members "minify" readFlag false
  let modules ← field members "css_modules" readFlag false
  some { enabled, minify, modules }

/-- The settings of boosting. -/
def readBoost (exact : Bool) (setting : Setting) : Option BoostSettings := do
  let members ← sectionMembers exact ["times", "match"] setting
  let times ← field members "times" readCount 1
  let patterns ← field members "match" readTexts []
  some { times, patterns }

/-- The first member of a table in the order of its keys. -/
def firstMember? (members : List (String × Setting)) : Option (String × Setting) :=
  members.foldl (fun first member =>
    match first with
    | some known => if member.1 < known.1 then some member else first
    | none => some member) none

/-- A mode, as its name or as a table with its name and `null`. With `exact` such a table has no
other members. -/
def readMode (exact : Bool) : Setting → Option LoaderMode
  | .text name => LoaderMode.ofName? name
  | .table members =>
    if exact && members.length ≠ 1 then none
    else
      match firstMember? members with
      | some (name, .null) => LoaderMode.ofName? name
      | _ => none
  | _ => none

/-- The settings of a loader. -/
def readLoader (exact : Bool) (setting : Setting) : Option LoaderSettings := do
  let members ← sectionMembers exact ["export_name", "mode"] setting
  let exportName ← field members "export_name" readText defaultExportName
  let mode ← field members "mode" (readMode exact) .standard
  some { exportName, mode }

/-- The fields of a configuration, in order. -/
def fields : List String :=
  ["cwd", "extensions", "tsconfig", "auto_stable", "lightningcss", "specificity_boost", "loader"]

/-- The configuration that a setting is. With `exact` nothing may stand in a list or a table that
has no meaning by its position. -/
def ofSetting? (exact : Bool) (setting : Setting) : Option Config := do
  let members ← sectionMembers exact fields setting
  let cwd ← field members "cwd" (readOptional readText) none
  let extensions ← field members "extensions" readTexts []
  let aliases ← field members "tsconfig" readAliases .off
  let stable ← field members "auto_stable" (readStable exact) {}
  let finish ← field members "lightningcss" (readFinish exact) {}
  let boost ← field members "specificity_boost" (readOptional (readBoost exact)) none
  let loader ← field members "loader" (readLoader exact) {}
  some { cwd, extensions, aliases, stable, finish, boost, loader }

/-- The configuration that a JSON value is. -/
def ofJson? (json : Json) : Option Config := ofSetting? true (Setting.ofJson json)

/-- The configuration that layers make over the default one. -/
def ofLayers? (layers : List Setting) : Option Config :=
  ofSetting? false (layers.foldl Setting.overlay (Setting.ofJson ({} : Config).toJson))

end Config

end StyleGraph
