import StyleGraph.Script.Declaration

/-!
# Imports and exports of scripts
-/

set_option autoImplicit false

namespace StyleGraph.Script.Linkage

open Read

variable (f : Flavor) (g : Grammar)

/-- A source, with its quotes. -/
def source : Read String := do
  match ← next with
  | .text value => pure value
  | _ => refuse

/-- The conditions under which a source is loaded, in braces after a keyword. -/
def attributes? : Read Unit := do
  let given ← (do pure (← atWord "with") <||> (do pure ((← atWord "assert") && !(← onNewLine))))
  if given then
    let _ ← next
    mark "\x7b"
    let _ ← commaList "\x7d" do
      let _ ← g.key
      mark ":"
      let _ ← source

/-- The source of an import or export and the end of the statement. -/
def sourceAndEnd : Read String := do
  let found ← source
  attributes? g
  endStatement
  pure found

/-- A name in a list: a word, or text in quotes. The flag tells which. -/
def listedName : Read (String × Bool) := do
  match ← next with
  | .word found _ => pure (found, false)
  | .text value => pure (value, true)
  | _ => refuse

/-- Takes `type` in front of a listed name. It is the name itself when `as`, a comma or the end of
the list follows, except that `as as` renames a type named `as`. -/
def typeMarker? : Read Bool := do
  let marks ← ahead do
    ensure f.types
    word "type"
    match ← next with
    | .word "as" false =>
      match ← next with
      | .word "as" false =>
        match ← peek with
        | .word _ _ | .text _ => pure ()
        | _ => refuse
      | .word _ _ | .text _ => refuse
      | _ => pure ()
    | .word _ _ | .text _ => pure ()
    | _ => refuse
  if marks then word? "type" else pure false

/-- An entry of an import list. -/
def importEntry : Read ImportName := do
  let _ ← typeMarker? f
  let (exported, quoted) ← listedName
  if ← word? "as" then pure (.named exported (← name))
  else
    ensure !(quoted || Read.reserved.contains exported)
    pure (.named exported exported)

/-- The names of an import after its default name: all as one object, or a list in braces. -/
def importNames : Read (List ImportName) := do
  if ← mark? "*" then
    word "as"
    pure [.all (← name)]
  else
    mark "\x7b"
    commaList "\x7d" (importEntry f)

/-- The names and the source of an import. -/
def importClause (typesOnly : Bool) : Read Statement := do
  let first ← if ← atName then pure [ImportName.default (← name)] else pure []
  let more ←
    if first.isEmpty then importNames f
    else if ← mark? "," then importNames f
    else pure []
  word "from"
  pure (.imports typesOnly (first ++ more) (← sourceAndEnd g))

/-- A name for a member of a namespace, or for a module that a call loads. -/
def importEquals : Read Unit := do
  let _ ← name
  mark "="
  let loads ← ahead do
    word "require"
    ensure (← atMark "(")
  if loads then
    word "require"
    mark "("
    let _ ← source
    mark ")"
  else
    let _ ← anyWord
    Annotation.qualified
  endStatement

/-- Whether `name =` is next. -/
def atEquals : Read Bool :=
  ahead do
    ensure f.types
    let _ ← name
    mark "="

/-- Takes a keyword in front of an import clause. It is the default name itself when `from` or a
comma follows; in front of `from`, it is the keyword when another `from` follows. -/
def clauseKeyword? (keyword : String) : Read Bool := do
  let marks ← ahead do
    word keyword
    match ← next with
    | .mark "*" | .mark "\x7b" => pure ()
    | .word "from" false => ensure ((← atWord "from") || (← atMark "="))
    | .word _ _ => pure ()
    | _ => refuse
  if marks then word? keyword else pure false

/-- An import. -/
def imports : Read Statement := do
  word "import"
  match ← peek with
  | .text _ => pure (.imports false [] (← sourceAndEnd g))
  | _ =>
    let typesOnly ← if f.types then clauseKeyword? "type" else pure false
    if ← atEquals f then
      importEquals
      pure .other
    else
      if !typesOnly then
        let _ ← (do pure (← clauseKeyword? "defer") <||> clauseKeyword? "source")
      importClause f g typesOnly

/-- An entry of an export list, and whether it can name something of this script. -/
def exportEntry : Read (ExportName × Bool) := do
  let _ ← typeMarker? f
  let (inner, quoted) ← listedName
  let here := !(quoted || Read.reserved.contains inner)
  if ← word? "as" then
    let (exported, _) ← listedName
    pure (⟨inner, exported⟩, here)
  else pure (⟨inner, inner⟩, here)

/-- An export of a list in braces. -/
def exportList (typesOnly : Bool) : Read Statement := do
  mark "\x7b"
  let entries ← commaList "\x7d" (exportEntry f)
  let names := entries.map Prod.fst
  if ← word? "from" then pure (.exports typesOnly [] names (some (← sourceAndEnd g)))
  else
    ensure (entries.all Prod.snd)
    endStatement
    pure (.exports typesOnly [] names none)

/-- An export of everything. -/
def exportAll (typesOnly : Bool) : Read Statement := do
  mark "*"
  let name ←
    if ← word? "as" then
      let (found, _) ← listedName
      pure (some found)
    else pure none
  word "from"
  pure (.exportsAll typesOnly name (← sourceAndEnd g))

/-- The default export after its keywords. -/
def exportDefault : Read Statement := do
  if ← Class.atFunction then
    Class.function f g false false
    pure (.exportsDefault none)
  else if (← atWord "class") || (← atMark "@") then
    g.decorators
    Class.classRest f g false
    pure (.exportsDefault none)
  else if ← ahead (do word "abstract"; ensure (← atWord "class")) then
    word "abstract"
    Class.classRest f g false
    pure (.exportsDefault none)
  else if ← Declaration.namesOnLine "interface" then
    word "interface"
    Declaration.interfaceRest g
    pure (.exportsDefault none)
  else
    let value ← g.item {}
    endStatement
    pure (.exportsDefault (some value))

/-- An export. -/
def exports : Read Statement := do
  word "export"
  if ← word? "default" then exportDefault f g
  else if ← atMark "*" then exportAll g false
  else if ← atMark "\x7b" then exportList f g false
  else if ← mark? "=" then
    let _ ← g.expression {}
    endStatement
    pure .other
  else if ← ahead (do word "as"; word "namespace") then
    word "as"
    word "namespace"
    let _ ← name
    endStatement
    pure .other
  else if ← word? "import" then
    let _ ← if f.types then clauseKeyword? "type" else pure false
    importEquals
    pure (.exports false [] [] none)
  else if ← ahead (do ensure f.types; word "type"; ensure ((← atMark "\x7b") || (← atMark "*"))) then
    word "type"
    if ← atMark "*" then exportAll g true else exportList f g true
  else
    let declared ← Declaration.atDeclare f
    match ← Declaration.any? f g with
    | some found => pure (.exports declared (found.getD []) [] none)
    | none => refuse

end StyleGraph.Script.Linkage
