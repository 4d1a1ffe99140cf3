import StyleGraph.Number.Binary64

/-!
# Scripts as trees

The part of a script that a static reading needs: its imports and exports, the variables of its top
level, and the expressions without control flow. All else is there only as a placeholder, whose
syntax was checked and whose content is forgotten.
-/

set_option autoImplicit false

namespace StyleGraph.Script

mutual

/-- An expression. -/
inductive Expression
  | text (value : String)
  | number (value : Number.Binary64)
  | null
  /-- A reference to a binding. -/
  | name (ident : String)
  /-- A minus sign before an operand. -/
  | negate (operand : Expression)
  /-- A template: text, then expressions each followed by text. -/
  | template (head : String) (parts : List Part)
  | object (properties : List Property)
  | array (items : List Item)
  /-- A member by a name. -/
  | member (object : Expression) (key : String)
  /-- A member by an expression in brackets. -/
  | index (object : Expression) (key : Expression)
  | call (callee : Expression) (arguments : List Item)
  /-- An expression in parentheses or under a type annotation, which do not change its value. -/
  | group (inner : Expression)
  /-- Any other expression. -/
  | other

/-- An expression of a template and the text that follows it. -/
inductive Part
  | mk (value : Expression) (following : String)

/-- A property of an object. -/
inductive Property
  | keyed (key : Key) (value : Expression)
  /-- All properties of another object. -/
  | spread (value : Expression)

/-- The key of a property. -/
inductive Key
  /-- A plain name. -/
  | named (name : String)
  /-- A literal, or an expression in brackets. -/
  | computed (value : Expression)

/-- An item of an array or an argument of a call. -/
inductive Item
  | single (value : Expression)
  /-- A hole, or all items of another list. -/
  | irregular

end

instance : Inhabited Expression := ⟨.other⟩

/-- What a declaration binds. -/
inductive Pattern
  | name (ident : String)
  /-- The items of a list in brackets, without holes and without the rest. -/
  | list (items : List Pattern)
  /-- A pattern in braces, or one with a default value. -/
  | other
  deriving Inhabited

mutual

/-- The names that a pattern binds to whole items of a list, from left to right. -/
def Pattern.names : Pattern → List String
  | .name ident => [ident]
  | .list items => Pattern.namesOfList items
  | .other => []

/-- The names that patterns bind, from left to right. -/
def Pattern.namesOfList : List Pattern → List String
  | [] => []
  | pattern :: rest => pattern.names ++ Pattern.namesOfList rest

end

/-- One variable declaration: what is bound, and the value if one is given. -/
structure Declarator where
  target : Pattern
  value : Option Expression := none
  deriving Inhabited

/-- One name of an import list. -/
inductive ImportName
  /-- The default export under a local name. -/
  | default (bound : String)
  /-- All exports as one object under a local name. -/
  | all (bound : String)
  /-- One export under a local name. -/
  | named (exported bound : String)
  deriving DecidableEq, Repr, Inhabited

/-- One entry of an export list: a name here, and the name that others see. -/
structure ExportName where
  inner : String
  exported : String
  deriving DecidableEq, Repr, Inhabited

/-- A statement at the top level of a script. -/
inductive Statement
  /-- An import, of types alone or of values. -/
  | imports (typesOnly : Bool) (names : List ImportName) (source : String)
  /-- Variable declarations. -/
  | declared (declarators : List Declarator)
  /-- An export of declarations or of listed names, which a source may provide. -/
  | exports (typesOnly : Bool) (declarators : List Declarator) (names : List ExportName)
      (source : Option String)
  /-- An export of everything that a source exports, under one name if a name is given. -/
  | exportsAll (typesOnly : Bool) (name : Option String) (source : String)
  /-- The default export, with its value when it is an expression. -/
  | exportsDefault (value : Option Expression)
  | expression (value : Expression)
  | other
  deriving Inhabited

/-- The names under which a statement exports, apart from those of functions and classes. -/
def Statement.exportedNames : Statement → List String
  | .exports _ declarators names _ =>
    (declarators.flatMap fun declarator => declarator.target.names) ++
      names.map ExportName.exported
  | .exportsAll _ (some name) _ => [name]
  | .exportsDefault _ => ["default"]
  | _ => []

/-- Whether no name is exported twice. -/
def exportsApart (statements : List Statement) : Bool :=
  decide (statements.flatMap Statement.exportedNames).Nodup

end StyleGraph.Script
