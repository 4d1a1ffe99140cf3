import StyleGraph.Css.Condition

/-!
# Rules

The rules of a sheet. A style rule has selectors, declarations and perhaps rules inside it; a group
holds rules under a header; declarations that stand after a nested rule, or directly in a group
inside a style rule, are a rule of their own. All other rules hold no style rule.
-/

set_option autoImplicit false

namespace StyleGraph.Css

/-- The name of a layer, part by part. -/
abbrev LayerName := List String

/-- What a group applies to. -/
inductive Header
  | media (queries : List MediaQuery)
  | supports (condition : Condition)
  | container (name : Option String) (condition : Option Condition)
  | layer (name : Option LayerName)
  | startingStyle
  /-- The one condition on the address of the document that is still known, which every address
  meets. -/
  | document
  | scope (start stop : Option (List Selector))

/-- A place in an animation. -/
inductive FrameOffset
  | start
  | stop
  | percentage (value : Decimal)
  deriving DecidableEq, Repr, Inhabited

/-- The declarations at some places of an animation. -/
structure Keyframe where
  offsets : List FrameOffset
  block : Block
  deriving DecidableEq, Repr, Inhabited

/-- A kind of page: a name, and pseudo-classes. -/
structure PageSelector where
  name : Option String
  pseudos : List String
  deriving DecidableEq, Repr, Inhabited

/-- A rule without style rules inside it. -/
inductive Leaf
  | imported (url : String) (layer : Option (Option LayerName)) (supports : Option Condition)
    (media : List MediaQuery)
  | nameSpace (name : Option String) (url : String)
  | layers (names : List LayerName)
  /-- An animation; `keyword` is the at-rule's name, perhaps with a vendor's prefix. -/
  | keyframes (keyword name : String) (quoted : Bool) (frames : List Keyframe)
  | fontFace (descriptors : List Declaration)
  | page (selectors : List PageSelector) (block : Block) (margins : List (String × Block))
  /-- A rule of uninterpreted content. -/
  | unknown (keyword : String) (lead : List Item) (content : Option (List Item))
  deriving DecidableEq, Repr, Inhabited

/-- A rule. -/
inductive Rule
  | style (selectors : List Selector) (block : Block) (rules : List Rule)
  | group (header : Header) (rules : List Rule)
  | declarations (block : Block)
  | leaf (leaf : Leaf)

instance : Inhabited Rule := ⟨.declarations {}⟩

instance : Inhabited Header := ⟨.startingStyle⟩

/-- A style sheet. -/
structure Sheet where
  rules : List Rule
  deriving Inhabited

mutual

/-- The rule with the selectors of every style rule in it changed. -/
def Rule.mapSelectors (f : List Selector → List Selector) : Rule → Rule
  | .style selectors block rules => .style (f selectors) block (Rule.mapSelectorsAll f rules)
  | .group header rules => .group header (Rule.mapSelectorsAll f rules)
  | .declarations block => .declarations block
  | .leaf other => .leaf other

/-- The rules with the selectors of every style rule in them changed. -/
def Rule.mapSelectorsAll (f : List Selector → List Selector) : List Rule → List Rule
  | [] => []
  | rule :: rest => rule.mapSelectors f :: Rule.mapSelectorsAll f rest

end

mutual

/-- The selector lists of the style rules in a rule, outer ones first. -/
def Rule.selectorLists : Rule → List (List Selector)
  | .style selectors _ rules => selectors :: Rule.selectorListsOfAll rules
  | .group _ rules => Rule.selectorListsOfAll rules
  | .declarations _ => []
  | .leaf _ => []

/-- The selector lists of the style rules in a list of rules. -/
def Rule.selectorListsOfAll : List Rule → List (List Selector)
  | [] => []
  | rule :: rest => rule.selectorLists ++ Rule.selectorListsOfAll rest

end

namespace Sheet

/-- The sheet with the selectors of every style rule changed. -/
def mapSelectors (f : List Selector → List Selector) (sheet : Sheet) : Sheet :=
  ⟨Rule.mapSelectorsAll f sheet.rules⟩

/-- The selector lists of all style rules, in order. -/
def selectorLists (sheet : Sheet) : List (List Selector) := Rule.selectorListsOfAll sheet.rules

end Sheet

end StyleGraph.Css
