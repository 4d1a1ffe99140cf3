import StyleGraph.Css.Rule

/-!
# Exported names

A sheet whose names are local exports every name that writing it makes local. A class also exports
the classes that its rules compose. Composing is allowed only directly in a rule at the top of the
sheet, whose selectors are single classes.
-/

set_option autoImplicit false

namespace StyleGraph.Css

/-- A class that another one is composed of. -/
inductive ComposedClass
  | sheet (name : String)
  | global (name : String)
  | file (name path : String)
  deriving DecidableEq, Repr, Inhabited

/-- An exported name and the classes it is composed of. -/
structure Export where
  name : String
  composed : List ComposedClass := []
  deriving DecidableEq, Repr, Inhabited

namespace Selector

/-- The class that a selector is, if it is nothing else. -/
def singleClass? (selector : Selector) : Option String :=
  match selector.components with
  | [component] => component.class?
  | _ => none

end Selector

namespace Declaration

/-- The classes that a declaration composes. -/
def composed (declaration : Declaration) : List ComposedClass :=
  match declaration.value with
  | .composes names source =>
    names.map fun name =>
      match source with
      | .sheet => .sheet name
      | .global => .global name
      | .file path => .file name path
  | _ => []

end Declaration

namespace Block

/-- Whether a declaration composes classes. -/
def hasComposes (block : Block) : Bool := block.all.any Declaration.isComposes

/-- The classes that a block composes, in order. -/
def composed (block : Block) : List ComposedClass := block.all.flatMap Declaration.composed

/-- The local names of a block. -/
def locals (block : Block) : List String := block.all.flatMap fun d => d.value.locals

end Block

namespace Header

/-- The local names of a group's header. -/
def locals : Header → List String
  | .container name _ => name.toList
  | .scope start stop =>
    Selector.localsOfList (start.getD []) ++ Selector.localsOfList (stop.getD [])
  | _ => []

end Header

namespace Leaf

/-- The local names of a rule without style rules. -/
def locals : Leaf → List String
  | .keyframes _ name quoted frames =>
    (if quoted && (Nth.lower name == "none" || Value.wideKeywords.contains (Nth.lower name)) then []
      else [name]) ++ frames.flatMap fun frame => frame.block.locals
  | .page _ block margins => block.locals ++ margins.flatMap fun margin => margin.2.locals
  | _ => []

end Leaf

namespace Rule

mutual

/-- The local names of a rule. -/
def locals : Rule → List String
  | .style selectors block rules =>
    Selector.localsOfList selectors ++ block.locals ++ localsOfAll rules
  | .group header rules => header.locals ++ localsOfAll rules
  | .declarations block => block.locals
  | .leaf other => other.locals

/-- The local names of rules. -/
def localsOfAll : List Rule → List String
  | [] => []
  | rule :: rest => rule.locals ++ localsOfAll rest

end

mutual

/-- Whether a rule inside `depth` others composes classes only where that is allowed. -/
def composesWell (depth : Nat) : Rule → Bool
  | .style selectors block rules =>
    (!block.hasComposes ||
        (depth == 0 && selectors.all fun selector => selector.singleClass?.isSome)) &&
      composesWellAll (depth + 1) rules
  | .group _ rules => composesWellAll (depth + 1) rules
  | .declarations block => !block.hasComposes || depth ≤ 1
  | .leaf _ => true

/-- Whether rules inside `depth` others compose classes only where that is allowed. -/
def composesWellAll (depth : Nat) : List Rule → Bool
  | [] => true
  | rule :: rest => rule.composesWell depth && composesWellAll depth rest

end

/-- What a rule at the top of a sheet composes: pairs of a class and one it is composed of. -/
def compositions : Rule → List (String × ComposedClass)
  | .style selectors block _ =>
    (selectors.filterMap Selector.singleClass?).flatMap fun name =>
      block.composed.map fun composed => (name, composed)
  | _ => []

end Rule

namespace Sheet

/-- Whether a sheet composes classes only where that is allowed. -/
def composesWell (sheet : Sheet) : Bool := Rule.composesWellAll 0 sheet.rules

/-- The exports of a sheet, ordered by name. -/
def exports (sheet : Sheet) : List Export :=
  let names := (Rule.localsOfAll sheet.rules).eraseDups
  let compositions := sheet.rules.flatMap Rule.compositions
  (names.mergeSort fun a b => decide (a ≤ b)).map fun name =>
    { name
      composed :=
        ((compositions.filter fun entry => entry.1 == name).map Prod.snd).eraseDups }

end Sheet

end StyleGraph.Css
