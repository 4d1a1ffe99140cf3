import StyleGraph.Text.Cut
import StyleGraph.Text.Quoted

/-!
# Generated modules

A module to be generated, as data, and its source text. Sections come in a fixed order: imports,
the helper if some statement needs it, the statements, the re-exports, the default export.
-/

set_option autoImplicit false

namespace StyleGraph.Emit

/-- Words that cannot name an exported binding. -/
def reservedWords : List String :=
  ["await", "break", "case", "catch", "class", "const", "continue", "debugger", "default",
   "delete", "do", "else", "enum", "export", "extends", "false", "finally", "for", "function",
   "if", "implements", "import", "in", "instanceof", "interface", "let", "new", "null",
   "package", "private", "protected", "public", "return", "static", "super", "switch", "this",
   "throw", "true", "try", "typeof", "var", "void", "while", "with", "yield"]

/-- A character that may begin an exported name. -/
def isNameStart (c : Char) : Bool := c.isAlpha || c == '_' || c == '$'

/-- A character that may continue an exported name. -/
def isNameChar (c : Char) : Bool := c.isAlphanum || c == '_' || c == '$'

/-- Whether a name can be an exported binding. Names outside ASCII are not used. -/
def isIdentifier (name : String) : Bool :=
  match name.toList with
  | [] => false
  | first :: rest => isNameStart first && rest.all isNameChar && !reservedWords.contains name

/-- The import of a whole module under a name. -/
structure NamespaceImport where
  name : String
  specifier : String
  deriving DecidableEq, Repr, Inhabited

/-- An expression of a generated module. -/
inductive Expr
  | ident (name : String)
  | str (value : String)
  /-- A property, with a dot or with brackets as its name requires. -/
  | member (object property : String)
  /-- The default export of a module if it has one, else the module. -/
  | defaultOrNamespace (module : String)
  /-- The class maps of modules, merged in order. -/
  | modulesOf (modules : List String)
  /-- Texts, one on each line. -/
  | join (items : List Expr)
  /-- Source taken as it is. -/
  | raw (source : String)
  deriving Repr, Inhabited

/-- A statement of a generated module. -/
inductive Stmt
  | const (name : String) (init : Expr)
  | exportConst (name : String) (init : Expr)
  /-- Source taken as it is. -/
  | raw (source : String)
  deriving Repr, Inhabited

/-- A module to be generated. -/
structure Module where
  imports : List NamespaceImport := []
  statements : List Stmt := []
  /-- Modules whose exports are exported again. -/
  reexports : List String := []
  defaultExport : Option Expr := none
  deriving Repr, Inhabited

/-- The name of the helper that finds the class map of a module. -/
def modulesHelperName : String := "__knightedResolveModules"

/-- The name under which a class map is exported. -/
def modulesExport : String := "knightedCssModules"

/-- The name under which stable selectors are exported. -/
def stableExport : String := "stableSelectors"

mutual

/-- Whether an expression calls the helper. -/
def Expr.usesHelper : Expr → Bool
  | .modulesOf _ => true
  | .join items => Expr.anyUsesHelper items
  | _ => false

/-- Whether one of several expressions calls the helper. -/
def Expr.anyUsesHelper : List Expr → Bool
  | [] => false
  | item :: items => item.usesHelper || Expr.anyUsesHelper items

end

/-- Whether a statement calls the helper. -/
def Stmt.usesHelper : Stmt → Bool
  | .const _ init => init.usesHelper
  | .exportConst _ init => init.usesHelper
  | .raw _ => false

/-- The helper. A declared class map counts even when it is empty; then come the `locals` of the
default export, the default export if it holds texts only, and the texts exported by name. The
export that holds the style text is not a class. -/
def modulesHelper (cssExport : String) : String :=
  "function " ++ modulesHelperName ++ "(payload) \x7b\n" ++
  "  const declared = payload.knightedCssModules;\n" ++
  "  if (declared && typeof declared === \"object\") \x7b\n" ++
  "    return declared.locals && typeof declared.locals === \"object\" ? declared.locals" ++
  " : declared;\n" ++
  "  \x7d\n" ++
  "  const primary = payload.default;\n" ++
  "  if (primary && typeof primary === \"object\") \x7b\n" ++
  "    if (primary.locals && typeof primary.locals === \"object\") return primary.locals;\n" ++
  "    const values = Object.values(primary);\n" ++
  "    if (values.length > 0 && values.every((value) => typeof value === \"string\"))" ++
  " return primary;\n" ++
  "  \x7d\n" ++
  "  const locals = \x7b\x7d;\n" ++
  "  for (const [key, value] of Object.entries(payload)) \x7b\n" ++
  "    if (key === \"default\" || key === \"__esModule\" || key === " ++ Text.quote cssExport ++
  ") continue;\n" ++
  "    if (typeof value === \"string\") locals[key] = value;\n" ++
  "  \x7d\n" ++
  "  return locals;\n" ++
  "\x7d\n"

/-- A call of the helper. -/
def helperCall (module : String) : String := modulesHelperName ++ "(" ++ module ++ ")"

mutual

/-- The source of an expression. -/
def Expr.render : Expr → String
  | .ident name => name
  | .str value => Text.quote value
  | .member object property =>
    if isIdentifier property then object ++ "." ++ property
    else object ++ "[" ++ Text.quote property ++ "]"
  | .defaultOrNamespace module =>
    "typeof " ++ module ++ ".default !== \"undefined\" ? " ++ module ++ ".default : " ++ module
  | .modulesOf [module] => helperCall module
  | .modulesOf modules =>
    "Object.assign(\x7b\x7d" ++ String.join (modules.map fun m => ", " ++ helperCall m) ++ ")"
  | .join items => "[" ++ String.intercalate ", " (Expr.renderAll items) ++ "].join(\"\\n\")"
  | .raw source => source

/-- The sources of several expressions. -/
def Expr.renderAll : List Expr → List String
  | [] => []
  | item :: items => item.render :: Expr.renderAll items

end

/-- The source of a statement, ending its line. -/
def Stmt.render : Stmt → String
  | .const name init => "const " ++ name ++ " = " ++ init.render ++ ";\n"
  | .exportConst name init => "export const " ++ name ++ " = " ++ init.render ++ ";\n"
  | .raw source => if Text.endsWith ['\n'] source.toList then source else source ++ "\n"

namespace Module

/-- Adds an import. -/
def addImport (module : Module) (name specifier : String) : Module :=
  { module with imports := module.imports ++ [⟨name, specifier⟩] }

/-- Adds a statement. -/
def addStmt (module : Module) (stmt : Stmt) : Module :=
  { module with statements := module.statements ++ [stmt] }

/-- Adds an exported constant. -/
def addExport (module : Module) (name : String) (init : Expr) : Module :=
  module.addStmt (.exportConst name init)

/-- Adds a constant. -/
def addConst (module : Module) (name : String) (init : Expr) : Module :=
  module.addStmt (.const name init)

/-- Adds source as it is. -/
def addRaw (module : Module) (source : String) : Module := module.addStmt (.raw source)

/-- Adds a re-export of everything from a module. -/
def addReexport (module : Module) (specifier : String) : Module :=
  { module with reexports := module.reexports ++ [specifier] }

/-- The names of the exported constants, in order. -/
def exportedNames (module : Module) : List String :=
  module.statements.filterMap fun stmt =>
    match stmt with
    | .exportConst name _ => some name
    | _ => none

/-- Whether the helper has to be part of the source. -/
def needsHelper (module : Module) : Bool := module.statements.any Stmt.usesHelper

/-- The source of a module; `cssExport` names the export that holds the style text. -/
def render (module : Module) (cssExport : String) : String :=
  let imports := module.imports.map fun item =>
    "import * as " ++ item.name ++ " from " ++ Text.quote item.specifier ++ ";\n"
  let gap := if module.imports.isEmpty then "" else "\n"
  let helper := if module.needsHelper then modulesHelper cssExport ++ "\n" else ""
  let statements := module.statements.map Stmt.render
  let reexports := module.reexports.map fun specifier =>
    "export * from " ++ Text.quote specifier ++ ";\n"
  let default := match module.defaultExport with
    | some expr => "export default " ++ expr.render ++ ";\n"
    | none => ""
  String.join imports ++ gap ++ helper ++ String.join statements ++ String.join reexports ++ default

end Module

end StyleGraph.Emit
