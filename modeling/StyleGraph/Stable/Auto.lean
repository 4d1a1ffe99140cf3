import StyleGraph.Css.Selector.Basic
import StyleGraph.Css.Sheet.Exports
import StyleGraph.Pattern.Basic
import StyleGraph.Stable.Token

/-!
# Stable variants of selectors

A stable variant of a selector has a stable class in place of every class that is accepted, also
inside lists of selectors. Where names are local, the stable class stands inside `:global(…)`. What
stands inside `:global(…)` or `:local(…)` is never changed.
-/

set_option autoImplicit false

namespace StyleGraph.Stable

open Css

/-- Which classes get a stable variant, if any do. -/
inductive AutoStable
  | disabled
  /-- All classes, in the default namespace. -/
  | enabled
  /-- The classes that match one pattern and do not match another. -/
  | custom (space : Option String) (included excluded : Option Pattern)
  deriving DecidableEq, Repr, Inhabited

namespace AutoStable

/-- Whether any class gets a stable variant. -/
def isEnabled : AutoStable → Bool
  | .disabled => false
  | _ => true

end AutoStable

/-- How classes become stable. -/
structure Scheme where
  /-- The namespace, without blanks at its ends. -/
  space : String
  included : Option Pattern := none
  excluded : Option Pattern := none
  /-- Whether stable classes stand inside `:global(…)`. -/
  wrapsGlobal : Bool := false
  deriving DecidableEq, Repr, Inhabited

namespace Scheme

/-- The scheme of a namespace, for all classes. -/
def ofSpace (space : String) : Scheme := { space := Text.trimmed space }

/-- The scheme that an option asks for. -/
def ofOption? : AutoStable → Option Scheme
  | .disabled => none
  | .enabled => some (ofSpace defaultNamespace)
  | .custom space included excluded =>
    some { ofSpace (space.getD defaultNamespace) with included, excluded }

/-- Whether a class gets a stable variant. -/
def accepts (scheme : Scheme) (name : String) : Bool :=
  !(!scheme.space.isEmpty && name.startsWith (scheme.space ++ "-")) &&
    (scheme.included.all fun pattern => pattern.isMatch name) &&
    !(scheme.excluded.any fun pattern => pattern.isMatch name)

/-- The stable class of a class that gets one. -/
def stableFor? (scheme : Scheme) (name : String) : Option String :=
  if scheme.accepts name then some (className name scheme.space) else none

/-- The simple selector of a stable class. -/
def component (scheme : Scheme) (name : String) : Component :=
  if scheme.wrapsGlobal then .wrap .global (.ofWritten [.class name]) else .class name

mutual

/-- A component with stable classes in it, and whether it has changed. -/
def rewriteComponent (scheme : Scheme) : Component → Component × Bool
  | .class name =>
    match scheme.stableFor? name with
    | some stable => (scheme.component stable, true)
    | none => (.class name, false)
  | .list kind selectors =>
    let (selectors, changed) := scheme.rewriteList selectors
    (.list kind selectors, changed)
  | .wrap .slotted inner =>
    let (inner, changed) := scheme.rewriteSelector inner
    (.wrap .slotted inner, changed)
  | .wrap .host inner =>
    let (inner, changed) := scheme.rewriteSelector inner
    (.wrap .host inner, changed)
  | component => (component, false)

/-- A selector with stable classes in it, and whether it has changed. -/
def rewriteSelector (scheme : Scheme) : Selector → Selector × Bool
  | .mk components flags =>
    let (rewritten, changed) := scheme.rewriteComponents components
    (if changed then .mk rewritten {} else .mk components flags, changed)

/-- Components with stable classes in them, and whether one has changed. -/
def rewriteComponents (scheme : Scheme) : List Component → List Component × Bool
  | [] => ([], false)
  | component :: rest =>
    let (component, changed) := scheme.rewriteComponent component
    let (rest, restChanged) := scheme.rewriteComponents rest
    (component :: rest, changed || restChanged)

/-- Selectors with stable classes in them, and whether one has changed. -/
def rewriteList (scheme : Scheme) : List Selector → List Selector × Bool
  | [] => ([], false)
  | selector :: rest =>
    let (selector, changed) := scheme.rewriteSelector selector
    let (rest, restChanged) := scheme.rewriteList rest
    (selector :: rest, changed || restChanged)

end

end Scheme

end StyleGraph.Stable
