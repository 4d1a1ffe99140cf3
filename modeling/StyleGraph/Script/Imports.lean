import StyleGraph.Emit.Default
import StyleGraph.Script.Reader
import StyleGraph.Text.Blank

/-!
# What a script imports and exports

Static answers from the text of a script alone.
-/

set_option autoImplicit false

namespace StyleGraph.Script

/-- The flavour of a module: the one of its extension, and the one with the most syntax for an
extension that is not known. -/
def moduleFlavor (path : String) : Flavor := (Flavor.ofPath? path).getD .full

/-- The source that a statement refers to, unless it does so for types alone. -/
def Statement.valueSource? : Statement → Option String
  | .imports false _ source => some source
  | .exports false _ _ (some source) => some source
  | .exportsAll false _ source => some source
  | _ => none

/-- The source that a statement refers to. -/
def Statement.source? : Statement → Option String
  | .imports _ _ source => some source
  | .exports _ _ _ source => source
  | .exportsAll _ _ source => some source
  | _ => none

/-- The sources that a script refers to for values, in order. Nothing when the text is not a
script. -/
def importedSources? (source path : String) : Option (List String) :=
  (read? (moduleFlavor path) source).map fun statements => statements.filterMap Statement.valueSource?

/-- Each entry where it first occurs. -/
def distinct (found : List String) : List String :=
  found.foldl (fun seen s => if seen.contains s then seen else seen ++ [s]) []

/-- Whether a specifier names a style module: before its query it ends in `.module` and an extension
of style sheets. -/
def isStyleModule (specifier : String) : Bool :=
  let (path, _) := Text.cutQuery specifier.toList
  [".module.css", ".module.scss", ".module.sass", ".module.less"].any fun tail =>
    Text.endsWith tail.toList path

/-- The quoted text of an import or export that begins a line, found without reading the script:
after the keyword, text without quotes and semicolons, then at least one character in quotes.
Gives the text and what follows its closing quote. -/
def quotedAfterKeyword? (cs : List Char) : Option (String × List Char) := do
  let cs := cs.dropWhile Text.isBlank
  let afterKeyword ←
    match Text.stripStart? "import".toList cs with
    | some rest => some rest
    | none => Text.stripStart? "export".toList cs
  if afterKeyword.head?.any Text.isWordChar then none
  else
    let isQuote (c : Char) : Bool := c = '"' || c.toNat = 0x27
    let rest := afterKeyword.dropWhile fun c => !(isQuote c || c = ';')
    match rest with
    | quote :: body =>
      if isQuote quote then
        let value := body.takeWhile (!isQuote ·)
        match body.dropWhile (!isQuote ·) with
        | _ :: after => if value.isEmpty then none else some (String.ofList value, after)
        | [] => none
      else none
    | [] => none

/-- The quoted texts of imports and exports that begin a line, in order. A search goes on after the
text it found. -/
def quotedSources (cs : List Char) : List String :=
  go cs.length cs true
where
  go : Nat → List Char → Bool → List String
    | 0, _, _ => []
    | fuel + 1, cs, atLineStart =>
      let found := if atLineStart then quotedAfterKeyword? cs else none
      match found with
      | some (value, after) => value :: go fuel after false
      | none =>
        match cs with
        | [] => []
        | c :: rest => go fuel rest (c = '\n')

/-- The style modules that a script refers to, each once. A text that is not a script is searched
for lines that look like imports. -/
def styleModuleImports (source path : String) : List String :=
  let found :=
    match read? (moduleFlavor path) source with
    | some statements => statements.filterMap Statement.source?
    | none => quotedSources source.toList
  distinct (found.filter isStyleModule)

/-- Whether a statement exports something as the default. -/
def Statement.exportsDefaultName : Statement → Bool
  | .exportsDefault _ => true
  | .exports _ _ names _ => names.any (·.exported = "default")
  | .exportsAll _ (some name) _ => name = "default"
  | _ => false

/-- Whether a statement is an import or an export. -/
def Statement.isLinkage : Statement → Bool
  | .imports .. | .exports .. | .exportsAll .. | .exportsDefault .. => true
  | _ => false

/-- Looks for the default export of a module. -/
def defaultExport (source path : String) : Emit.DefaultSignal :=
  match read? (moduleFlavor path) source with
  | none => .unknown
  | some statements =>
    if statements.any (·.exportsDefaultName) then .present
    else if statements.any (·.isLinkage) then .absent
    else .unknown

end StyleGraph.Script
