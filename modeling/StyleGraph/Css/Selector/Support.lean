import StyleGraph.Css.Selector.Names
import StyleGraph.Css.Selector.Printer

/-!
# Selectors that are understood everywhere

A reader of style sheets drops a whole rule if it does not know one of its selectors. So rules may
be joined only if all their selectors are understood everywhere.
-/

set_option autoImplicit false

namespace StyleGraph.Css

mutual

/-- Whether a component is understood everywhere. -/
def Component.isPlain : Component → Bool
  | .list kind selectors =>
    match kind with
    | .negation | .has => Selector.allPlain selectors
    | .is => !unwrapsIs selectors || Selector.allPlain selectors
    | .where_ => true
    | .any _ => false
  | .wrap kind _ =>
    match kind with
    | .global | .local => false
    | _ => true
  | .nthOf _ selectors => Selector.allPlain selectors
  | .pseudoClass pseudo =>
    match pseudo with
    | .known name => PseudoClass.isPlain name
    | .lang _ | .dir _ => true
    | _ => false
  | .pseudoElement pseudo =>
    match pseudo with
    | .known name => PseudoElement.plain.contains name
    | _ => false
  | _ => true

/-- Whether a selector is understood everywhere. -/
def Selector.isPlain : Selector → Bool
  | .mk components _ => Component.allPlain components

/-- Whether all components are understood everywhere. -/
def Component.allPlain : List Component → Bool
  | [] => true
  | component :: rest => component.isPlain && Component.allPlain rest

/-- Whether all selectors are understood everywhere. -/
def Selector.allPlain : List Selector → Bool
  | [] => true
  | selector :: rest => selector.isPlain && Selector.allPlain rest

end

end StyleGraph.Css
