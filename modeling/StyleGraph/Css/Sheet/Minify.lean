import StyleGraph.Css.Block
import StyleGraph.Css.Rule
import StyleGraph.Css.Selector.Support

/-!
# Short sheets

A sheet without rules that have no effect: neighbouring groups with one header become one group,
layers of one name are put together where the first stands, and neighbouring style rules are
joined if they have the same selectors or the same declarations. A style rule goes if a later one
has the same selectors and sets the same properties.
-/

set_option autoImplicit false

namespace StyleGraph.Css

namespace Header

/-- Whether two groups apply under the same condition, so that neighbours can be joined. -/
def joins : Header → Header → Bool
  | .media a, .media b => a = b
  | .supports a, .supports b => a = b
  | .container a c, .container b d => a = b && c = d
  | _, _ => false

/-- Whether a group without rules has no effect. -/
def dropsEmpty : Header → Bool
  | .scope _ _ | .document => false
  | _ => true

end Header

namespace Rule

mutual

/-- How deep rules are nested in a rule. -/
def depth : Rule → Nat
  | .style _ _ rules => depthOfAll rules + 1
  | .group _ rules => depthOfAll rules + 1
  | .declarations _ => 1
  | .leaf _ => 1

/-- How deep rules are nested in a list of rules. -/
def depthOfAll : List Rule → Nat
  | [] => 0
  | rule :: rest => max rule.depth (depthOfAll rest)

end

/-- What tells a style rule that a later one can make void: its selectors, its properties and
their importance. -/
structure Key where
  selectors : List Selector
  normal : List String
  important : List String

/-- Whether two keys are the same. -/
def Key.same (a b : Key) : Bool :=
  Selector.sameAll a.selectors b.selectors && a.normal == b.normal && a.important == b.important

/-- The key of a style rule. -/
def Key.of (selectors : List Selector) (block : Block) : Key :=
  ⟨selectors, block.normal.map (·.property), block.important.map (·.property)⟩

/-- Rules on the way to a short list. A rule found void leaves a hole, so places stay as they
are. -/
structure Draft where
  rules : List (Option Rule) := []
  /-- The keys of style rules, and their places. -/
  keys : List (Key × Nat) := []

namespace Draft

/-- The rule at the end. -/
def last? (draft : Draft) : Option Rule := draft.rules.getLast?.join

/-- Puts a rule in place of the last one. -/
def setLast (draft : Draft) (rule : Rule) : Draft :=
  { draft with rules := draft.rules.dropLast ++ [some rule] }

/-- Puts a rule at the end. -/
def push (draft : Draft) (rule : Rule) : Draft := { draft with rules := draft.rules ++ [some rule] }

/-- Removes the last rule. -/
def pop (draft : Draft) : Draft := { draft with rules := draft.rules.dropLast }

/-- The place of the first rule that satisfies `p`. -/
def place? (p : Rule → Bool) (draft : Draft) : Option Nat :=
  draft.rules.findIdx? fun rule => rule.any p

/-- Puts another rule at a place. -/
def set (draft : Draft) (place : Nat) (rule : Option Rule) : Draft :=
  { draft with rules := draft.rules.set place rule }

end Draft

/-- The rule that two neighbouring style rules become, if they can be joined. -/
def join? : Rule → Rule → Option Rule
  | .style selectors block [], .style others other [] =>
    if !(Selector.allPlain selectors && Selector.allPlain others) then none
    else if Selector.sameAll selectors others then
      some (.style selectors (block.append other).minify [])
    else if block = other then some (.style (selectors ++ others) block [])
    else none
  | _, _ => none

/-- Joins the last rule with the one before as long as that is possible. -/
def joinBack : Nat → Draft → Draft
  | 0, draft => draft
  | fuel + 1, draft =>
    match draft.rules.reverse with
    | some last :: some before :: _ =>
      match join? before last with
      | some joined => joinBack fuel (draft.pop.setLast joined)
      | none => draft
    | _ => draft

/-- Puts a style rule at the end, and makes an earlier one void that it overrides. -/
def addStyle (draft : Draft) (selectors : List Selector) (block : Block) (rules : List Rule) :
    Draft :=
  let rule : Rule := .style selectors block rules
  match draft.last?.bind fun last => join? last rule with
  | some joined => joinBack draft.rules.length (draft.setLast joined)
  | none =>
    if block.isEmpty && rules.isEmpty then draft
    else
      let place := draft.rules.length
      let draft := draft.push rule
      if !rules.isEmpty then draft
      else
        let key := Key.of selectors block
        let isSame (entry : Key × Nat) : Bool :=
          entry.1.same key &&
            match draft.rules[entry.2]?.join with
            | some (.style selectors block _) => (Key.of selectors block).same key
            | _ => false
        let draft := match draft.keys.find? isSame with
          | some (_, earlier) =>
            { (draft.set earlier none) with keys := draft.keys.filter fun e => !isSame e }
          | none => draft
        { draft with keys := (key, place) :: draft.keys }

/-- Whether a rule is the block of a given layer. -/
def isLayer (name : LayerName) : Rule → Bool
  | .group (.layer (some other)) _ => name == other
  | _ => false

/-- Whether a rule is an animation of a given at-rule and name. -/
def isKeyframes (keyword name : String) : Rule → Bool
  | .leaf (.keyframes otherKeyword other _ _) => keyword == otherKeyword && name == other
  | _ => false

/-- The rules inside a rule. -/
def inner : Rule → List Rule
  | .style _ _ rules | .group _ rules => rules
  | _ => []

/-- Takes one more rule into a draft; `shorten` makes the rules inside it short. -/
def add (shorten : List Rule → List Rule) (draft : Draft) : Rule → Draft
  | .style selectors block rules => addStyle draft selectors block.minify (shorten rules)
  | .declarations block =>
    let block := block.minify
    if block.isEmpty then draft else draft.push (.declarations block)
  | .group (.layer (some name)) rules =>
    match draft.place? (isLayer name) with
    | some place =>
      let before := ((draft.rules[place]?.join).map inner).getD []
      draft.set place (some (.group (.layer (some name)) (shorten (before ++ rules))))
    | none =>
      draft.push (.group (.layer (some name)) (shorten rules))
  | .group header rules =>
    let joined : Option (List Rule) := match draft.last? with
      | some (.group other before) => if header.joins other then some (before ++ rules) else none
      | _ => none
    match joined with
    | some rules =>
      let rules := shorten rules
      if rules.isEmpty then draft.pop else draft.setLast (.group header rules)
    | none =>
      let rules := shorten rules
      if rules.isEmpty && header.dropsEmpty then draft else draft.push (.group header rules)
  | .leaf (.layers names) =>
    names.foldl (fun draft name =>
      if (draft.place? (isLayer name)).isSome then draft
      else draft.push (.group (.layer (some name)) [])) draft
  | .leaf (.keyframes keyword name quoted frames) =>
    let frames := frames.map fun frame => { frame with block := frame.block.minify }
    let rule : Rule := .leaf (.keyframes keyword name quoted frames)
    match draft.place? (isKeyframes keyword name) with
    | some place => draft.set place (some rule)
    | none => draft.push rule
  | .leaf other => draft.push (.leaf other)

/-- Puts the names of layers without rules into one statement, where the first of them stands; a
layer with rules begins a new one. `isOpen` tells whether there is a statement before, which takes
the names given back. -/
def gatherLayers (declared : List LayerName) (isOpen : Bool) :
    List Rule → List LayerName × List Rule
  | [] => ([], [])
  | .group (.layer (some name)) [] :: rest =>
    if declared.contains name then gatherLayers declared isOpen rest
    else
      let (names, rest) := gatherLayers (name :: declared) true rest
      if isOpen then (name :: names, rest) else ([], .leaf (.layers (name :: names)) :: rest)
  | .group (.layer name) rules :: rest =>
    ([], .group (.layer name) rules :: (gatherLayers declared false rest).2)
  | rule :: rest =>
    let (names, rest) := gatherLayers declared isOpen rest
    (names, rule :: rest)

/-- A short list of rules that are nested at most `depth` deep. -/
def minifyAll : Nat → List Rule → List Rule
  | 0, rules => rules
  | depth + 1, rules =>
    let draft := rules.foldl (add (minifyAll depth)) {}
    (gatherLayers [] false (draft.rules.filterMap id)).2

end Rule

namespace Sheet

/-- A sheet without rules and declarations that have no effect. -/
def minify (sheet : Sheet) : Sheet :=
  ⟨Rule.minifyAll (Rule.depthOfAll sheet.rules + 1) sheet.rules⟩

end Sheet

end StyleGraph.Css
