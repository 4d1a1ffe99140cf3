import StyleGraph.Css.Sheet.Minify
import StyleGraph.Css.Sheet.Printer
import StyleGraph.Css.Sheet.Reader
import StyleGraph.Stable.Exports
import StyleGraph.Stable.Transform

/-!
# Finishing a sheet

The last pass over the text of a whole sheet: its selectors are rewritten, rules that compose
classes are split so that composing stays allowed, and the sheet is written again, perhaps in its
short form. Where names are local, the exported names come with it.
-/

set_option autoImplicit false

namespace StyleGraph

open Css Stable

/-- How a sheet is finished, apart from stable variants and boosting. -/
structure FinishOptions where
  minify : Bool := false
  /-- Whether names are local to the sheet. -/
  modules : Bool := false
  /-- Rewritings that come before all others. -/
  transforms : List Transform := []
  deriving Inhabited

/-- A finished sheet. -/
structure Finished where
  css : String
  /-- The exported names, if names are local. -/
  modules : Option (List (String × String))
  deriving DecidableEq, Repr, Inhabited

mutual

/-- A rule with those in it split that compose classes: the selectors that are not single classes
get a rule of their own, right after it, without what composes. -/
def Css.Rule.splitComposes : Rule → List Rule
  | .style selectors block rules =>
    let singles := selectors.filter fun selector => selector.singleClass?.isSome
    let others := selectors.filter fun selector => selector.singleClass?.isNone
    if block.hasComposes && !singles.isEmpty && !others.isEmpty then
      [.style singles block rules,
        .style others (block.filter fun declaration => !declaration.isComposes) rules]
    else [.style selectors block rules]
  | .group header rules =>
    match header with
    | .media _ | .supports _ | .layer _ | .container _ _ =>
      [.group header (Rule.splitComposesAll rules)]
    | _ => [.group header rules]
  | .declarations block => [.declarations block]
  | .leaf other => [.leaf other]

/-- Rules with those split that compose classes. -/
def Css.Rule.splitComposesAll : List Rule → List Rule
  | [] => []
  | rule :: rest => rule.splitComposes ++ Rule.splitComposesAll rest

end

/-- The text of a sheet, if what it composes is allowed. -/
def Css.Sheet.text? (style : Style) (sheet : Sheet) : Option String :=
  if style.scope.isNone || sheet.composesWell then some (sheet.render style) else none

/-- Finishes the text of a sheet; a text that is no sheet, or composes classes where that is not
allowed, has no finished form. -/
def finish? (css : String) (options : FinishOptions) (stable : AutoStable) (boost : Option Boost) :
    Option Finished := do
  let scheme := (Scheme.ofOption? stable).map fun scheme =>
    { scheme with wrapsGlobal := options.modules }
  let pipeline : Pipeline :=
    options.transforms ++ (boost.map Transform.ofBoost).toList ++
      (scheme.map Transform.ofScheme).toList
  let sheet ← Sheet.ofText? options.modules css
  let sheet := pipeline.run sheet
  let sheet : Sheet := if options.modules then ⟨Rule.splitComposesAll sheet.rules⟩ else sheet
  let sheet := if options.minify then sheet.minify else sheet
  let style : Style :=
    { compact := options.minify, scope := if options.modules then some localScope else none }
  let css ← sheet.text? style
  let modules := if options.modules then some (exportedNames scheme sheet.exports) else none
  some { css, modules }

end StyleGraph
