import StyleGraph.Css.Rule
import StyleGraph.Css.Selector.Reader
import StyleGraph.Css.Tokenizer

/-!
# Reading style sheets

A sheet is a list of rules: an at-rule goes on to a semicolon or a block, any other rule has
selectors and a block. Inside a style rule a name begins a declaration if one can be read there,
and else a nested rule. A single fault anywhere makes the whole sheet unreadable.

Layers may be declared before imports, imports stand before namespaces, and namespaces before all
other rules.
-/

set_option autoImplicit false

namespace StyleGraph.Css

namespace Rule

/-- Where rules are read. -/
structure Level where
  /-- Inside a style rule. -/
  inStyle : Bool := false
  deriving DecidableEq, Repr, Inhabited

/-- What a block holds: a declaration, which may be important, or a rule. -/
inductive Entry
  | declaration (declaration : Declaration) (important : Bool)
  | rule (rule : Rule)

/-- The reader of what stands in a block one level deeper. -/
abbrev Inner := Level → List Piece → Option (List Entry)

/-- Whether a piece is a semicolon. -/
def isSemicolon : Piece → Bool
  | .token .semicolon => true
  | _ => false

/-- Whether a piece is a block in curly brackets. -/
def isCurly : Piece → Bool
  | .block .curly _ => true
  | _ => false

/-- The pieces before a block, the block's content, and the rest. With `nested` a semicolon also
ends the search. -/
def toBlock (nested : Bool) : List Piece → List Piece × Option (List Piece) × List Piece
  | [] => ([], none, [])
  | .block .curly content :: rest => ([], some content, rest)
  | piece :: rest =>
    if nested && isSemicolon piece then ([], none, rest)
    else
      let (before, block, after) := toBlock nested rest
      (piece :: before, block, after)

/-- The declarations at the beginning of entries, and the rest. -/
def leadingBlock : List Entry → Block × List Entry
  | .declaration declaration important :: rest =>
    let (block, rest) := leadingBlock rest
    (if important then { block with important := declaration :: block.important }
      else { block with normal := declaration :: block.normal }, rest)
  | entries => ({}, entries)

/-- Entries as rules: neighbouring declarations make one rule. -/
def ofEntries : List Entry → List Rule
  | [] => []
  | .rule rule :: rest => rule :: ofEntries rest
  | .declaration declaration important :: rest =>
    let lead : Block := if important then ⟨[], [declaration]⟩ else ⟨[declaration], []⟩
    match rest, ofEntries rest with
    | .declaration _ _ :: _, .declarations block :: rules => .declarations (lead.append block) :: rules
    | _, rules => .declarations lead :: rules

/-- The name of a layer: names with points between them. -/
def readLayerName : List Piece → Option LayerName
  | [.token (.ident name)] => some [name]
  | .token (.ident name) :: .token (.delim '.') :: rest => (readLayerName rest).map (name :: ·)
  | _ => none

/-- Names of layers with commas between them. -/
def readLayerNames (pieces : List Piece) : Option (List LayerName) :=
  (Piece.splitAt Piece.isComma pieces).mapM fun part => readLayerName (Piece.strip part)

/-- Reads an address, as a string or not. -/
def readUrl : List Piece → Option (String × List Piece)
  | .token (.str url) :: rest => some (url, rest)
  | .token (.url url) :: rest => some (url, rest)
  | .function name content :: rest =>
    match Nth.lower name, Piece.strip content with
    | "url", [.token (.str url)] => some (url, rest)
    | _, _ => none
  | _ => none

/-- Reads what follows `@import`. -/
def readImport (pieces : List Piece) : Option Leaf := do
  let (url, rest) ← readUrl (Piece.skip pieces)
  let (layer, rest) ← (match Piece.skip rest with
    | .token (.ident word) :: rest =>
      if Nth.lower word == "layer" then some (some none, rest)
      else some (none, .token (.ident word) :: rest)
    | .function word content :: rest =>
      if Nth.lower word == "layer" then
        (readLayerName (Piece.strip content)).map fun name => (some (some name), rest)
      else some (none, .function word content :: rest)
    | rest => some (none, rest) : Option (Option (Option LayerName) × List Piece))
  let (supports, rest) ← (match Piece.skip rest with
    | .function word content :: rest =>
      if Nth.lower word == "supports" then
        let depth := Piece.depthOfList content + 2
        match Condition.readSupports depth (Piece.compact content) with
        | some condition => some (some condition, rest)
        | none => (Test.readDeclaration content).map fun test => (some (.test test), rest)
      else some (none, .function word content :: rest)
    | rest => some (none, rest) : Option (Option Condition × List Piece))
  let media ← MediaQuery.readList rest
  some (.imported url layer supports media)

/-- Reads what follows `@namespace`. -/
def readNamespace (pieces : List Piece) : Option (Option String × String) :=
  let address (name : Option String) (pieces : List Piece) : Option (Option String × String) :=
    match readUrl pieces with
    | some (url, rest) => if (Piece.skip rest).isEmpty then some (name, url) else none
    | none => none
  match Piece.skip pieces with
  | .token (.ident name) :: rest => address (some name) (Piece.skip rest)
  | rest => address none rest

/-- Reads a place in an animation. -/
def readOffset (pieces : List Piece) : Option FrameOffset :=
  match Piece.strip pieces with
  | [.token (.percentage value _)] => some (.percentage value)
  | [.token (.ident word)] =>
    match Nth.lower word with
    | "from" => some .start
    | "to" => some .stop
    | _ => none
  | _ => none

/-- Reads declarations only. -/
def readDeclarations : Nat → List Piece → Option Block
  | 0, _ => none
  | fuel + 1, pieces =>
    match pieces with
    | [] => some {}
    | piece :: rest =>
      if piece.isSpace || isSemicolon piece then readDeclarations fuel rest
      else
        match piece with
        | .token (.ident name) =>
          let body := rest.takeWhile fun piece => !isSemicolon piece
          match Declaration.read name body, readDeclarations fuel (rest.drop body.length) with
          | some (declaration, true), some block =>
            some { block with important := declaration :: block.important }
          | some (declaration, false), some block =>
            some { block with normal := declaration :: block.normal }
          | _, _ => none
        | _ => none

/-- Reads the frames of an animation. -/
def readFrames : Nat → List Piece → Option (List Keyframe)
  | 0, _ => none
  | fuel + 1, pieces =>
    match Piece.skip pieces with
    | [] => some []
    | pieces =>
      match toBlock false pieces with
      | (before, some content, rest) => do
        let offsets ← (Piece.splitAt Piece.isComma before).mapM readOffset
        let block ← readDeclarations (content.length + 1) content
        let frames ← readFrames fuel rest
        some (⟨offsets, block⟩ :: frames)
      | _ => none

/-- Reads the name of an animation, and whether it is a string. -/
def readKeyframesName (pieces : List Piece) : Option (String × Bool) :=
  match Piece.strip pieces with
  | [.token (.str name)] => some (name, true)
  | [.token (.ident name)] =>
    if Nth.lower name == "none" || Value.wideKeywords.contains (Nth.lower name) then none
    else some (name, false)
  | _ => none

/-- Reads a kind of page. -/
def readPageSelector (pieces : List Piece) : Option PageSelector :=
  let rec pseudos : List Piece → Option (List String)
    | [] => some []
    | .token .colon :: .token (.ident name) :: rest =>
      let name := Nth.lower name
      if ["left", "right", "first", "last", "blank"].contains name then
        (pseudos rest).map (name :: ·)
      else none
    | _ => none
  match Piece.strip pieces with
  | [] => none
  | .token (.ident name) :: rest => (pseudos rest).map fun names => ⟨some name, names⟩
  | rest => (pseudos rest).map fun names => ⟨none, names⟩

/-- The boxes in the margin of a page. -/
def pageMargins : List String :=
  ["top-left-corner", "top-left", "top-center", "top-right", "top-right-corner", "left-top",
   "left-middle", "left-bottom", "right-top", "right-middle", "right-bottom",
   "bottom-left-corner", "bottom-left", "bottom-center", "bottom-right", "bottom-right-corner"]

/-- Reads the content of a page rule. -/
def readPage : Nat → List Piece → Option (Block × List (String × Block))
  | 0, _ => none
  | fuel + 1, pieces =>
    match pieces with
    | [] => some ({}, [])
    | .token (.atKeyword name) :: rest =>
      match toBlock true rest with
      | (before, some content, rest) =>
        if (Piece.skip before).isEmpty && pageMargins.contains (Nth.lower name) then do
          let block ← readDeclarations (content.length + 1) content
          let (page, margins) ← readPage fuel rest
          some (page, (Nth.lower name, block) :: margins)
        else none
      | _ => none
    | piece :: rest =>
      if piece.isSpace || isSemicolon piece then readPage fuel rest
      else
        let body := rest.takeWhile fun piece => !isSemicolon piece
        match readDeclarations (body.length + 2) (piece :: body),
          readPage fuel (rest.drop body.length) with
        | some block, some (page, margins) => some (block.append page, margins)
        | _, _ => none

/-- Reads the selectors of a scope's end, in brackets. -/
def readScopeList (scope : NameScope) (level : Level) (lead : Selector.Lead) :
    Piece → Option (List Selector)
  | .block .paren content =>
    let lead := if level.inStyle then Selector.Lead.nested else lead
    Selector.readList scope lead content
  | _ => none

/-- Reads what stands before the block of `@scope`. -/
def readScope (scope : NameScope) (level : Level) (pieces : List Piece) : Option Header :=
  let isTo (piece : Piece) : Bool := Condition.isWord "to" piece
  match Piece.compact pieces with
  | [] => some (.scope none none)
  | [start] => (readScopeList scope level .absolute start).map fun start => .scope (some start) none
  | [word, stop] =>
    if isTo word then
      (readScopeList scope level .scoped stop).map fun stop => .scope none (some stop)
    else none
  | [start, word, stop] =>
    if isTo word then do
      let start ← readScopeList scope level .absolute start
      let stop ← readScopeList scope level .scoped stop
      some (.scope (some start) (some stop))
    else none
  | _ => none

/-- Reads the condition of `@-moz-document`: a prefix of addresses, which has to be empty. -/
def readDocument (pieces : List Piece) : Option Header :=
  match Piece.strip pieces with
  | [.function name content] =>
    match Nth.lower name, Piece.strip content with
    | "url-prefix", [] | "url-prefix", [.token (.str "")] => some .document
    | _, _ => none
  | _ => none

/-- Reads what stands before the block of a group. -/
def readHeader (scope : NameScope) (level : Level) (keyword : String) (pieces : List Piece) :
    Option Header :=
  match keyword with
  | "media" => (MediaQuery.readList pieces).map .media
  | "supports" =>
    (Condition.readSupports (Piece.depthOfList pieces + 1) (Piece.compact pieces)).map .supports
  | "container" =>
    let depth := Piece.depthOfList pieces + 1
    let condition (name : Option String) (pieces : List Piece) : Option Header :=
      if pieces.isEmpty then name.map fun name => .container (some name) none
      else (Condition.readFeatures depth true pieces).map fun c => .container name (some c)
    match Piece.compact pieces with
    | .token (.ident name) :: rest =>
      if Nth.lower name == "not" then condition none (.token (.ident name) :: rest)
      else if ["none", "and", "or"].contains (Nth.lower name) ||
          Value.wideKeywords.contains (Nth.lower name) then none
      else condition (some name) rest
    | rest => condition none rest
  | "layer" =>
    match Piece.strip pieces with
    | [] => some (.layer none)
    | rest => (readLayerName rest).map fun name => .layer (some name)
  | "starting-style" => if (Piece.skip pieces).isEmpty then some .startingStyle else none
  | "-moz-document" => readDocument pieces
  | "scope" => readScope scope level pieces
  | _ => none

/-- The groups. -/
def groupKeywords : List String :=
  ["media", "supports", "container", "layer", "starting-style", "-moz-document", "scope"]

/-- The at-rules of animations. -/
def keyframesKeywords : List String :=
  ["keyframes", "-webkit-keyframes", "-moz-keyframes", "-o-keyframes", "-ms-keyframes"]

/-- The at-rules that cannot go without a block, apart from groups and animations. -/
def blockKeywords : List String :=
  ["font-face", "page", "counter-style", "viewport", "-ms-viewport", "property",
   "font-palette-values", "font-feature-values", "view-transition", "nest"]

/-- The at-rules that stand only at the beginning of a sheet. -/
def leadingKeywords : List String := ["import", "namespace", "charset"]

/-- Whether an at-rule is refused where names are local: the one that once defined names there. -/
def isOutdated (scope : NameScope) (lowered : String) : Bool := scope.modules && lowered == "value"

/-- Reads an at-rule with a block. -/
def readBlockRule (scope : NameScope) (inner : Inner) (level : Level) (keyword : String)
    (before content : List Piece) : Option Rule :=
  let lowered := Nth.lower keyword
  if groupKeywords.contains lowered then do
    let header ← readHeader scope level lowered before
    let entries ← inner level content
    some (.group header (ofEntries entries))
  else if leadingKeywords.contains lowered || isOutdated scope lowered then none
  else if keyframesKeywords.contains lowered then do
    if level.inStyle then none
    let (name, quoted) ← readKeyframesName before
    let frames ← readFrames (content.length + 1) content
    some (.leaf (.keyframes lowered name quoted frames))
  else if lowered == "font-face" then do
    if level.inStyle || !(Piece.skip before).isEmpty then none
    let block ← readDeclarations (content.length + 1) content
    some (.leaf (.fontFace block.normal))
  else if lowered == "page" then do
    if level.inStyle then none
    let selectors ←
      if (Piece.skip before).isEmpty then some []
      else (Piece.splitAt Piece.isComma before).mapM readPageSelector
    let (block, margins) ← readPage (content.length + 1) content
    some (.leaf (.page selectors block margins))
  else do
    if level.inStyle && blockKeywords.contains lowered then none
    let lead ← Item.ofPieces? (Piece.strip before)
    let items ← Item.ofPieces? content
    some (.leaf (.unknown keyword lead (some items)))

/-- Reads an at-rule without a block. -/
def readStatement (scope : NameScope) (keyword : String) (before : List Piece) : Option Leaf :=
  let lowered := Nth.lower keyword
  if lowered == "layer" then (readLayerNames before).map .layers
  else if groupKeywords.contains lowered || leadingKeywords.contains lowered ||
      keyframesKeywords.contains lowered || blockKeywords.contains lowered ||
      isOutdated scope lowered then none
  else (Item.ofPieces? (Piece.strip before)).map fun lead => .unknown keyword lead none

/-- The pieces of an at-rule before its block or its end, the block's content, and the rest. -/
def toEnd (pieces : List Piece) : List Piece × Option (List Piece) × List Piece :=
  toBlock true pieces

/-- Reads a style rule from its selectors and the content of its block. -/
def readStyle (scope : NameScope) (inner : Inner) (level : Level) (before content : List Piece) :
    Option Rule := do
  let lead := if level.inStyle then Selector.Lead.nested else Selector.Lead.absolute
  let selectors ← Selector.readList scope lead before
  let entries ← inner { inStyle := true } content
  let (block, entries) := leadingBlock entries
  some (.style selectors block (ofEntries entries))

/-- Reads what stands in a block. -/
def readEntries (scope : NameScope) (inner : Inner) (level : Level) :
    Nat → List Piece → Option (List Entry)
  | 0, _ => none
  | fuel + 1, pieces =>
    let style (_ : Unit) : Option (List Entry) :=
      match toBlock true pieces with
      | (before, some content, rest) => do
        let rule ← readStyle scope inner level before content
        let entries ← readEntries scope inner level fuel rest
        some (.rule rule :: entries)
      | _ => none
    match pieces with
    | [] => some []
    | piece :: rest =>
      if piece.isSpace || isSemicolon piece then readEntries scope inner level fuel rest
      else
        match piece with
        | .token (.atKeyword keyword) =>
          match toEnd rest with
          | (before, some content, rest) => do
            let rule ← readBlockRule scope inner level keyword before content
            let entries ← readEntries scope inner level fuel rest
            some (.rule rule :: entries)
          | (before, none, rest) => do
            let leaf ← readStatement scope keyword before
            let entries ← readEntries scope inner level fuel rest
            some (.rule (.leaf leaf) :: entries)
        | .token (.ident name) =>
          if level.inStyle then
            let body := rest.takeWhile fun piece => !isSemicolon piece
            match Declaration.read name body with
            | some (declaration, important) =>
              (readEntries scope inner level fuel (rest.drop body.length)).map fun entries =>
                .declaration declaration important :: entries
            | none => style ()
          else style ()
        | _ => style ()

/-- Reads what stands in a block, whose brackets are nested at most `depth` deep. -/
def read (scope : NameScope) : Nat → Inner
  | 0 => fun _ _ => none
  | depth + 1 => fun level pieces =>
    readEntries scope (read scope depth) level (pieces.length + 1) pieces

end Rule

namespace Sheet

/-- How far a sheet has been read. -/
inductive Stage
  | layers
  | imports
  | namespaces
  | body
  deriving DecidableEq, Repr, Inhabited

/-- The stages in order. -/
def Stage.rank : Stage → Nat
  | .layers => 0
  | .imports => 1
  | .namespaces => 2
  | .body => 3

/-- Whether a piece opens or closes a comment of markup. -/
def isMarkupComment : Piece → Bool
  | .token .commentOpen | .token .commentClose => true
  | _ => false

/-- Reads an at-rule without a block at the top of a sheet; gives the rule, if it leaves one, the
scope and the stage after it. -/
def readStatement (scope : NameScope) (stage : Stage) (keyword : String) (before : List Piece) :
    Option (Option Leaf × NameScope × Stage) :=
  match Nth.lower keyword with
  | "import" =>
    if stage.rank > Stage.imports.rank then none
    else (Rule.readImport before).map fun leaf => (some leaf, scope, .imports)
  | "namespace" =>
    if stage.rank > Stage.namespaces.rank then none
    else
      (Rule.readNamespace before).map fun (name, url) =>
        let scope := match name with
          | some name => { scope with spaces := (name, url) :: scope.spaces }
          | none => { scope with defaultSpace := some url }
        (some (.nameSpace name url), scope, .namespaces)
  | "charset" =>
    match Piece.compact before with
    | [.token (.str _)] => some (none, scope, stage)
    | _ => none
  | "layer" =>
    (Rule.readLayerNames before).map fun names =>
      (some (.layers names), scope, if stage = .layers then .layers else .body)
  | _ => (Rule.readStatement scope keyword before).map fun leaf => (some leaf, scope, .body)

/-- Reads the rules at the top of a sheet. -/
def readRules (depth : Nat) : Nat → NameScope → Stage → Bool → List Piece → Option (List Rule)
  | 0, _, _, _, _ => none
  | fuel + 1, scope, stage, first, pieces =>
    let inner : Rule.Inner := Rule.read scope depth
    match pieces with
    | [] => some []
    | piece :: rest =>
      if piece.isSpace || isMarkupComment piece then readRules depth fuel scope stage first rest
      else
        match piece with
        | .token (.atKeyword keyword) =>
          if first && Nth.lower keyword == "charset" then
            readRules depth fuel scope stage false
              (rest.dropWhile fun piece => !Rule.isSemicolon piece).tail
          else
            match Rule.toEnd rest with
            | (before, some content, rest) => do
              let rule ← Rule.readBlockRule scope inner {} keyword before content
              let rules ← readRules depth fuel scope .body false rest
              some (rule :: rules)
            | (before, none, rest) => do
              let (leaf, scope, stage) ← readStatement scope stage keyword before
              let rules ← readRules depth fuel scope stage false rest
              some ((leaf.map Rule.leaf).toList ++ rules)
        | _ =>
          match Rule.toBlock false pieces with
          | (before, some content, rest) => do
            let rule ← Rule.readStyle scope inner {} before content
            let rules ← readRules depth fuel scope .body false rest
            some (rule :: rules)
          | _ => none

/-- Reads a sheet. With `modules` names are local to the sheet. -/
def ofText? (modules : Bool) (text : String) : Option Sheet :=
  let pieces := Piece.ofText text
  (readRules (Piece.depthOfList pieces + 1) (pieces.length + 1) { modules } .layers true pieces).map
    Sheet.mk

end Sheet

end StyleGraph.Css
