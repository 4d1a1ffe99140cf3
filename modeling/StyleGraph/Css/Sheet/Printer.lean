import StyleGraph.Css.Rule

/-!
# Writing style sheets

The spacious form has one declaration a line, two blanks of indentation for every level, and a
blank line between rules; the compact form has no blank that is not needed. Where names are local,
`composes` is not written: it shows in the names that the sheet exports.
-/

set_option autoImplicit false

namespace StyleGraph.Css

namespace Style

/-- A line end and the indentation of the next line. -/
def newline (style : Style) (depth : Nat) : String :=
  if style.compact then "" else "\n" ++ String.ofList (List.replicate (2 * depth) ' ')

/-- A blank line. -/
def blankLine (style : Style) : String := if style.compact then "" else "\n"

/-- A block in curly brackets; `content` is written one level deeper. -/
def braces (style : Style) (depth : Nat) (content : String) : String :=
  "\x7b" ++ content ++ style.newline depth ++ "\x7d"

end Style

namespace Decimal

/-- A percentage in its written form. -/
def renderPercentage (value : Decimal) : String := value.render ++ "%"

end Decimal

namespace Block

/-- Declarations with their importance, in the order in which they are written. -/
def marked (block : Block) : List (Declaration × Bool) :=
  block.normal.map (·, false) ++ block.important.map (·, true)

/-- Declarations with their semicolons. The compact form leaves out the last one: `last` is the
number of declarations before it. -/
def renderEach (style : Style) (last : Nat) : Nat → List (Declaration × Bool) → List String
  | _, [] => []
  | index, (declaration, important) :: rest =>
    (declaration.render style important ++ if index == last && style.compact then "" else ";") ::
      renderEach style last (index + 1) rest

/-- The declarations of a style rule, each on its line but the first. What composes is left out
where names are local. -/
def renderOpen (style : Style) (depth : Nat) (nested : Bool) (block : Block) : String :=
  let shown :=
    if style.scope.isNone then block.marked
    else block.marked.filter fun entry => !entry.1.isComposes
  let last := if nested then block.size else block.size - 1
  String.intercalate (style.newline depth) (renderEach style last 0 shown)

/-- The declarations of another rule, each on its line. -/
def renderLines (style : Style) (depth last : Nat) (block : Block) : String :=
  String.join ((renderEach style last 0 block.marked).map (style.newline depth ++ ·))

/-- The declarations of another rule, as a block. -/
def renderBlock (style : Style) (depth : Nat) (block : Block) : String :=
  style.gap ++ style.braces depth (block.renderLines style (depth + 1) (block.size - 1))

end Block

namespace LayerName

/-- The name of a layer. -/
def render (name : LayerName) : String := String.intercalate "." (name.map Ident.render)

end LayerName

/-- Names of layers. -/
def renderLayers (style : Style) (names : List LayerName) : String :=
  String.intercalate style.comma (names.map LayerName.render)

namespace Header

/-- A list of selectors in brackets. -/
def renderSelectors (style : Style) (selectors : List Selector) : String :=
  "(" ++ Selector.renderList style selectors ++ ")" ++ style.gap

/-- A group's at-rule, up to its block; nothing for media rules without a query in the compact
form. -/
def render (style : Style) : Header → String
  | .media queries =>
    "@media " ++ String.intercalate style.comma (queries.map (·.render style)) ++ style.gap
  | .supports condition => "@supports " ++ condition.render style ++ style.gap
  | .container name condition =>
    "@container " ++ String.intercalate " "
      ((name.map style.renderLocal).toList ++ (condition.map (·.render style)).toList) ++ style.gap
  | .layer name => "@layer" ++ ((name.map fun name => " " ++ name.render).getD "") ++ style.gap
  | .startingStyle => "@starting-style" ++ style.gap
  | .document => "@-moz-document url-prefix()" ++ style.gap
  | .scope start stop =>
    "@scope" ++ style.gap ++ ((start.map (renderSelectors style)).getD "") ++
      (stop.map fun stop =>
        (if style.compact then " " else "") ++ "to " ++ renderSelectors style stop).getD ""

end Header

namespace FrameOffset

/-- The written form. -/
def render (style : Style) : FrameOffset → String
  | .start => if style.compact then "0%" else "from"
  | .stop => "to"
  | .percentage value =>
    if style.compact && value.render == "100" then "to" else value.renderPercentage

end FrameOffset

namespace Keyframe

/-- The written form. -/
def render (style : Style) (depth : Nat) (frame : Keyframe) : String :=
  String.intercalate style.comma (frame.offsets.map (·.render style)) ++
    frame.block.renderBlock style depth

end Keyframe

namespace PageSelector

/-- The written form. -/
def render (selector : PageSelector) : String :=
  ((selector.name.map Ident.render).getD "") ++ String.join (selector.pseudos.map (":" ++ ·))

end PageSelector

namespace Leaf

/-- The name of an animation. -/
def renderName (style : Style) (name : String) (quoted : Bool) : String :=
  if quoted && (Nth.lower name == "none" || Value.wideKeywords.contains (Nth.lower name)) then
    Ident.quote name
  else style.renderLocal name

/-- The written form. -/
def render (style : Style) (depth : Nat) : Leaf → String
  | .imported url layer supports media =>
    "@import " ++ Ident.quote url ++
      ((layer.map fun layer =>
        " layer" ++ ((layer.map fun name => "(" ++ name.render ++ ")").getD "")).getD "") ++
      ((supports.map fun condition =>
        " supports" ++ (match condition with
          | .test (.declaration _ _) => condition.render style
          | _ => "(" ++ condition.render style ++ ")")).getD "") ++
      (if media.isEmpty then ""
        else " " ++ String.intercalate style.comma (media.map (·.render style))) ++ ";"
  | .nameSpace name url =>
    "@namespace " ++ ((name.map fun name => Ident.render name ++ " ").getD "") ++
      Ident.quote url ++ ";"
  | .layers names => "@layer " ++ renderLayers style names ++ ";"
  | .keyframes keyword name quoted frames =>
    let frames := frames.map fun frame =>
      style.newline (depth + 1) ++ frame.render style (depth + 1)
    "@" ++ keyword ++ " " ++ renderName style name quoted ++ style.gap ++
      style.braces depth (String.intercalate style.blankLine frames)
  | .fontFace descriptors =>
    "@font-face" ++ Block.renderBlock style depth ⟨descriptors, []⟩
  | .page selectors block margins =>
    let lead :=
      if selectors.isEmpty || (style.compact && selectors.head?.all fun s => s.name.isNone) then ""
      else " "
    let boxes := margins.map fun (name, block) =>
      style.newline (depth + 1) ++ "@" ++ name ++ block.renderBlock style (depth + 1)
    "@page" ++ lead ++ String.intercalate style.comma (selectors.map (·.render)) ++ style.gap ++
      style.braces depth
        (block.renderLines style (depth + 1) (block.size + margins.length - 1) ++
          (if margins.isEmpty || block.isEmpty then "" else style.blankLine) ++
          String.intercalate style.blankLine boxes)
  | .unknown keyword lead content =>
    "@" ++ Ident.render keyword ++
      (if lead.isEmpty then "" else " " ++ Item.render style.compact lead) ++
      match content with
      | none => ";"
      | some items =>
        style.gap ++ style.braces depth
          (style.newline (depth + 1) ++ Item.render style.compact items)

/-- Whether a rule is one line that stands next to others of its kind. -/
def isLine : Leaf → Bool
  | .imported _ _ _ _ | .nameSpace _ _ | .layers _ => true
  | _ => false

end Leaf

namespace Rule

/-- Whether a rule is one line that stands next to others of its kind. -/
def isLine : Rule → Bool
  | .leaf other => other.isLine
  | _ => false

/-- Whether a rule is nothing but declarations. -/
def isDeclarations : Rule → Bool
  | .declarations _ => true
  | _ => false

/-- Written rules one after the other. -/
def renderSequence (style : Style) (depth : Nat) : List (Rule × String) → String
  | [] => ""
  | [(_, text)] => text
  | (first, text) :: (second, next) :: rest =>
    text ++ (if style.compact && first.isDeclarations then ";" else "") ++
      (if first.isLine && second.isLine then "" else style.blankLine) ++ style.newline depth ++
      renderSequence style depth ((second, next) :: rest)

mutual

/-- The written form of a rule. -/
def render (style : Style) (depth : Nat) : Rule → String
  | .style selectors block rules =>
    let nested := !rules.isEmpty
    let own :=
      if block.isEmpty then ""
      else style.newline (depth + 1) ++ block.renderOpen style (depth + 1) nested
    let inner :=
      if nested then
        (if block.isEmpty then "" else style.blankLine) ++ style.newline (depth + 1) ++
          renderSequence style (depth + 1) (renderEach style (depth + 1) rules)
      else ""
    Selector.renderList style selectors ++ style.gap ++ style.braces depth (own ++ inner)
  | .group header rules =>
    let content := renderSequence style (depth + 1) (renderEach style (depth + 1) rules)
    header.render style ++ style.braces depth (style.newline (depth + 1) ++ content)
  | .declarations block => block.renderOpen style depth false
  | .leaf other => other.render style depth

/-- Rules with their written forms. -/
def renderEach (style : Style) (depth : Nat) : List Rule → List (Rule × String)
  | [] => []
  | rule :: rest => (rule, rule.render style depth) :: renderEach style depth rest

end

end Rule

namespace Sheet

/-- The written form of a sheet. -/
def render (style : Style) (sheet : Sheet) : String :=
  Rule.renderSequence style 0 (Rule.renderEach style 0 sheet.rules) ++ style.newline 0

end Sheet

end StyleGraph.Css
