import StyleGraph.Css.Selector.Names
import StyleGraph.Css.Selector.Nth
import StyleGraph.Css.Selector.Printer

/-!
# Reading selectors

A selector is read compound by compound. What may follow depends on what has been read: after a
pseudo-element only a few pseudo-classes may come, and nothing but a comma after that compound.
Selectors inside selectors are read by the same rules one level deeper, so the nesting of brackets
bounds the recursion.

`:is(…)`, `:where(…)` and `:has(…)` drop members that cannot be read; every other list is refused
as a whole.
-/

set_option autoImplicit false

namespace StyleGraph.Css

/-- What a sheet declares about its names. -/
structure NameScope where
  /-- Whether names are local to the sheet, so that `:local(…)` and `:global(…)` hold selectors. -/
  modules : Bool := false
  /-- The namespace of names without a namespace. -/
  defaultSpace : Option String := none
  /-- The declared namespaces, the last declared first. -/
  spaces : List (String × String) := []
  deriving DecidableEq, Repr, Inhabited

/-- What has been read before in the same selector, and what its place allows. -/
structure Place where
  afterElement : Bool := false
  afterSlotted : Bool := false
  afterPart : Bool := false
  afterScrollbar : Bool := false
  /-- An unknown pseudo-element has been read. -/
  afterUnknown : Bool := false
  noCombinators : Bool := false
  noElements : Bool := false
  skipDefaultSpace : Bool := false
  deriving DecidableEq, Repr, Inhabited

namespace Place

/-- Whether a pseudo-element has been read after which only pseudo-classes come. -/
def afterPseudo (place : Place) : Bool :=
  place.afterElement || place.afterSlotted || place.afterPart

/-- Whether a pseudo-element may come. -/
def allowsElement (place : Place) : Bool := !(place.afterElement || place.noElements)

/-- Whether `::part(…)` and `::slotted(…)` may come. -/
def allowsPart (place : Place) : Bool := !(place.afterPseudo || place.noElements)

/-- The place inside `:is(…)` and the like. -/
def inList (place : Place) : Place := { place with skipDefaultSpace := true, noElements := true }

/-- The place inside `:host(…)` and `::slotted(…)`. -/
def inCompound (place : Place) : Place := { place with noCombinators := true, noElements := true }

/-- What is known about a selector that ends here. -/
def flags (place : Place) : SelectorFlags :=
  { hasPseudoElement := place.afterElement || place.afterUnknown
    hasSlotted := place.afterSlotted
    hasPart := place.afterPart }

end Place

namespace Selector

/-- How a selector begins. -/
inductive Lead
  /-- At its own place. -/
  | absolute
  /-- Perhaps with a combinator, before which `:scope` is implied. -/
  | scoped
  /-- Perhaps with a combinator; `&` is implied unless it is written. -/
  | nested
  deriving DecidableEq, Repr, Inhabited

/-- The reader of selectors one level deeper. -/
abbrev Inner := Lead → Place → List Piece → Option Selector

/-- What a reading step finds: components in written order, the place after them, and the rest. -/
abbrev Step := Option (List Component × Place × List Piece)

/-- Members of a list, those that cannot be read being dropped. -/
def readForgiving (inner : Inner) (lead : Lead) (place : Place) (content : List Piece) :
    List Selector :=
  (Piece.splitAt Piece.isComma content).filterMap (inner lead place)

/-- Members of a list, all of which must be readable. -/
def readStrict (inner : Inner) (lead : Lead) (place : Place) (content : List Piece) :
    Option (List Selector) :=
  (Piece.splitAt Piece.isComma content).mapM (inner lead place)

/-- A name without a namespace, or after one; `found` is what the namespace turns out to be. -/
inductive SpaceWritten
  | unwritten
  | none
  | any
  | named (name url : String)
  deriving DecidableEq, Repr, Inhabited

/-- Reads a name with its namespace; the name is missing for `*`. Nothing is read if no name
begins here, and a namespace that is not declared is refused. -/
def readQualified (scope : NameScope) (pieces : List Piece) :
    Option (Option ((SpaceWritten × Option String) × List Piece)) :=
  let explicit (space : SpaceWritten) (rest : List Piece) :
      Option (Option ((SpaceWritten × Option String) × List Piece)) :=
    match rest with
    | .token (.ident name) :: rest => some (some ((space, some name), rest))
    | .token (.delim '*') :: rest => some (some ((space, none), rest))
    | _ => none
  match pieces with
  | .token (.ident lead) :: .token (.delim '|') :: rest =>
    match scope.spaces.find? fun entry => entry.1 == lead with
    | some (name, url) => explicit (.named name url) rest
    | none => none
  | .token (.ident name) :: rest => some (some ((.unwritten, some name), rest))
  | .token (.delim '*') :: .token (.delim '|') :: rest => explicit .any rest
  | .token (.delim '*') :: rest => some (some ((.unwritten, none), rest))
  | .token (.delim '|') :: rest => explicit .none rest
  | _ => some none

/-- Reads a type selector or the universal selector, if one stands here. -/
def readType (scope : NameScope) (place : Place) (pieces : List Piece) : Step :=
  match readQualified scope pieces with
  | none => none
  | some none => some ([], place, pieces)
  | some (some ((space, name), rest)) =>
    if place.afterPseudo then none
    else
      let space : List Component := match space, scope.defaultSpace with
        | .unwritten, some url => [.ofNamespace (.default url)]
        | .unwritten, none => []
        | .none, _ => [.ofNamespace .none]
        | .any, some _ => [.ofNamespace .any]
        | .any, none => []
        | .named name url, default =>
          if default = some url then [.ofNamespace (.default url)]
          else [.ofNamespace (.named name url)]
      let name : Component := match name with
        | some name => .type name
        | none => .universal
      some (space ++ [name], place, rest)

/-- Reads the operator of an attribute selector. -/
def readMatch : List Piece → Option (AttrMatch × List Piece)
  | .token (.delim '=') :: rest => some (.equal, rest)
  | .token (.matcher c) :: rest =>
    match c with
    | '~' => some (.includes, rest)
    | '|' => some (.dash, rest)
    | '^' => some (.beginning, rest)
    | '$' => some (.ending, rest)
    | '*' => some (.substring, rest)
    | _ => none
  | _ => none

/-- Reads the content of an attribute selector. -/
def readAttr (scope : NameScope) (content : List Piece) : Option Component := do
  let found ← readQualified scope (Piece.skip content)
  let ((space, name), rest) ← found
  let name ← name
  let space : NameSpace := match space with
    | .unwritten | .none => .unwritten
    | .any => .any
    | .named name url => .named name url
  match Piece.strip rest with
  | [] => some (.attrExists space name)
  | rest => do
    let (matching, rest) ← readMatch rest
    let (value, rest) ← match Piece.skip rest with
      | .token (.ident value) :: rest => some (value, rest)
      | .token (.str value) :: rest => some (value, rest)
      | _ => none
    match Piece.skip rest with
    | [] => some (.attr space name matching value .standard)
    | [.token (.ident letterCase)] =>
      match Nth.lower letterCase with
      | "i" => some (.attr space name matching value .insensitive)
      | "s" => some (.attr space name matching value .sensitive)
      | _ => none
    | _ => none

/-- The names in a list that only blanks separate. -/
def readNames (content : List Piece) : Option (List String) :=
  match Piece.compact content with
  | [] => none
  | pieces => pieces.mapM fun piece =>
    match piece with
    | .token (.ident name) => some name
    | _ => none

/-- Reads a pseudo-class without a function. -/
def readPlainClass (scope : NameScope) (place : Place) (name : String) : Option Component :=
  let lowered := Nth.lower name
  let nth (kind : NthKind) (offset : Int) : Component := .nth ⟨kind, false, 0, offset⟩
  let structural : Option Component :=
    if place.afterPseudo then none
    else
      match lowered with
      | "first-child" => some (nth .child 1)
      | "last-child" => some (nth .lastChild 1)
      | "only-child" => some (nth .onlyChild 1)
      | "first-of-type" => some (nth .ofType 1)
      | "last-of-type" => some (nth .lastOfType 1)
      | "only-of-type" => some (nth .onlyOfType 1)
      | "root" => some .root
      | "empty" => some .empty
      | "scope" => some .scope
      | "host" => some .host
      | _ => none
  if place.afterSlotted then none
  else
    match structural with
    | some component => some component
    | none =>
      if scope.modules && (lowered == "local" || lowered == "global") then none
      else if place.afterScrollbar then
        if PseudoClass.scrollbar.contains lowered || PseudoClass.userActions.contains lowered ||
            lowered == "enabled" || lowered == "disabled" then
          some (.pseudoClass (.known lowered))
        else none
      else if place.afterElement && !PseudoClass.userActions.contains lowered then none
      else if PseudoClass.scrollbar.contains lowered then none
      else if PseudoClass.isKnown lowered then some (.pseudoClass (.known lowered))
      else some (.pseudoClass (.unknown name))

/-- Reads a position, perhaps among the elements that satisfy a selector. -/
def readNth (inner : Inner) (place : Place) (kind : NthKind) (content : List Piece) :
    Option Component := do
  if place.afterPseudo then none
  let ((step, offset), rest) ← Nth.read content
  let nth : Nth := ⟨kind, true, step, offset⟩
  match Piece.skip rest with
  | [] => some (.nth nth)
  | .token (.ident word) :: rest =>
    if Nth.lower word == "of" && (kind = .child || kind = .lastChild) then do
      let selectors ← readStrict inner .absolute place.inList rest
      some (.nthOf nth selectors)
    else none
  | _ => none

/-- Reads a pseudo-class that is a function. -/
def readFunctionClass (scope : NameScope) (inner : Inner) (place : Place) (name : String)
    (content : List Piece) : Option Component :=
  match Nth.lower name with
  | "nth-child" => readNth inner place .child content
  | "nth-last-child" => readNth inner place .lastChild content
  | "nth-of-type" => readNth inner place .ofType content
  | "nth-last-of-type" => readNth inner place .lastOfType content
  | "nth-col" => readNth inner place .col content
  | "nth-last-col" => readNth inner place .lastCol content
  | "is" => some (.list .is (readForgiving inner .absolute place.inList content))
  | "where" => some (.list .where_ (readForgiving inner .absolute place.inList content))
  | "-webkit-any" =>
    some (.list (.any "webkit") (readForgiving inner .absolute place.inList content))
  | "-moz-any" => some (.list (.any "moz") (readForgiving inner .absolute place.inList content))
  | "has" => some (.list .has (readForgiving inner .scoped place.inList content))
  | "not" => (readStrict inner .absolute place.inList content).map (.list .negation)
  | "host" =>
    if place.afterPseudo then none
    else (inner .absolute place.inCompound content).map (.wrap .host)
  | lowered =>
    if place.afterPseudo then none
    else
      match lowered, scope.modules with
      | "local", true => (inner .absolute {} content).map (.wrap .local)
      | "global", true => (inner .absolute {} content).map (.wrap .global)
      | "lang", _ =>
        let languages := (Piece.splitAt Piece.isComma content).mapM fun language =>
          match Piece.strip language with
          | [.token (.ident language)] => some language
          | [.token (.str language)] => some language
          | _ => none
        languages.map fun languages => .pseudoClass (.lang languages)
      | "dir", _ =>
        match Piece.strip content with
        | [.token (.ident direction)] =>
          let direction := Nth.lower direction
          if direction == "ltr" || direction == "rtl" then some (.pseudoClass (.dir direction))
          else none
        | _ => none
      | _, _ =>
        (Item.readRaw [] content).map fun items =>
          .pseudoClass (.unknownFunction name items.reverse)

/-- Reads a pseudo-element. -/
def readElement (inner : Inner) (place : Place) (name : String) (content : Option (List Piece)) :
    Option (List Component × Place) :=
  let lowered := Nth.lower name
  let known (component : Component) : List Component × Place :=
    ([.combinator .pseudoElement, component], { place with afterElement := true })
  let unknown (pseudo : PseudoElement) : List Component × Place :=
    ([.pseudoElement pseudo], { place with afterUnknown := true })
  if !place.allowsElement then none
  else
    match content with
    | none =>
      if place.afterSlotted && !PseudoElement.afterSlotted.contains lowered then none
      else if PseudoElement.isKnown lowered then
        let (components, place) := known (.pseudoElement (.known lowered))
        some (components,
          { place with afterScrollbar := PseudoElement.scrollbar.contains lowered })
      else some (unknown (.unknown name))
    | some content =>
      match lowered with
      | "part" =>
        if !place.allowsPart then none
        else
          (readNames content).map fun names =>
            ([.combinator .part, .part names], { place with afterPart := true })
      | "slotted" =>
        if !place.allowsPart then none
        else
          (inner .absolute place.inCompound content).map fun selector =>
            ([.combinator .slotAssignment, .wrap .slotted selector],
              { place with afterSlotted := true })
      | _ =>
        if place.afterSlotted then none
        else if lowered == "cue" || lowered == "cue-region" then
          (inner .absolute {} content).map fun selector =>
            known (.wrap (.element lowered) selector)
        else if PseudoElement.functions.contains lowered then
          match Piece.strip content with
          | [.token (.ident argument)] =>
            some (known (.pseudoElement (.knownFunction lowered argument)))
          | [.token (.delim '*')] => some (known (.pseudoElement (.knownFunction lowered "*")))
          | _ => none
        else
          (Item.readRaw [] content).map fun items =>
            unknown (.unknownFunction name items.reverse)

/-- Reads simple selectors as long as they follow each other directly; `acc` holds the components
read before, the last first. -/
def readSimples (scope : NameScope) (inner : Inner) (place : Place) (acc : List Component) :
    List Piece → Step
  | .token (.hash name true) :: rest =>
    if place.afterPseudo then none else readSimples scope inner place (.id name :: acc) rest
  | .token (.delim '.') :: .token (.ident name) :: rest =>
    if place.afterPseudo then none else readSimples scope inner place (.class name :: acc) rest
  | .token (.delim '.') :: _ => none
  | .block .square content :: rest =>
    if place.afterPseudo then none
    else
      match readAttr scope content with
      | some component => readSimples scope inner place (component :: acc) rest
      | none => none
  | .token .colon :: .token .colon :: .token (.ident name) :: rest =>
    match readElement inner place name none with
    | some (components, place) => readSimples scope inner place (components.reverse ++ acc) rest
    | none => none
  | .token .colon :: .token .colon :: .function name content :: rest =>
    match readElement inner place name (some content) with
    | some (components, place) => readSimples scope inner place (components.reverse ++ acc) rest
    | none => none
  | .token .colon :: .token (.ident name) :: rest =>
    if PseudoElement.oneColon.contains (Nth.lower name) then
      match readElement inner place name none with
      | some (components, place) => readSimples scope inner place (components.reverse ++ acc) rest
      | none => none
    else
      match readPlainClass scope place name with
      | some component => readSimples scope inner place (component :: acc) rest
      | none => none
  | .token .colon :: .function name content :: rest =>
    match readFunctionClass scope inner place name content with
    | some component => readSimples scope inner place (component :: acc) rest
    | none => none
  | .token .colon :: _ => none
  | .token (.delim '&') :: rest => readSimples scope inner place (.nesting :: acc) rest
  | rest => some (acc.reverse, place, rest)

/-- Whether a compound of these simple selectors, which has no type selector, stands for elements
of the default namespace. -/
def impliesDefaultSpace (place : Place) (components : List Component) : Bool :=
  !place.skipDefaultSpace &&
    match components with
    | [] | .host :: _ | .wrap .host _ :: _ => false
    | _ => true

/-- Reads a compound; it is empty if none stands here. -/
def readCompound (scope : NameScope) (inner : Inner) (place : Place) (pieces : List Piece) :
    Step := do
  let (nesting, pieces) : List Component × List Piece := match Piece.skip pieces with
    | .token (.delim '&') :: rest => ([.nesting], rest)
    | rest => ([], rest)
  let (type, place, pieces) ← readType scope place pieces
  let (simples, after, pieces) ← readSimples scope inner place [] pieces
  let space : List Component := match scope.defaultSpace with
    | some url =>
      if nesting.isEmpty && type.isEmpty && impliesDefaultSpace place simples then
        [.ofNamespace (.default url)]
      else []
    | none => []
  some (nesting ++ type ++ space ++ simples, after, pieces)

/-- Reads a combinator, if one stands here. -/
def readCombinator (pieces : List Piece) : Option Combinator × List Piece :=
  match Piece.skip pieces with
  | .token (.delim '>') :: rest => (some .child, rest)
  | .token (.delim '+') :: rest => (some .nextSibling, rest)
  | .token (.delim '~') :: rest => (some .laterSibling, rest)
  | [] => (none, [])
  | rest => if pieces.head?.any Piece.isSpace then (some .descendant, rest) else (none, rest)

/-- Reads compounds with combinators between them, up to the end. -/
def readCompounds (scope : NameScope) (inner : Inner) :
    Nat → Place → List Component → List Piece → Option (List Component × Place)
  | 0, _, _, _ => none
  | fuel + 1, place, acc, pieces =>
    match readCompound scope inner place pieces with
    | none => none
    | some (compound, place, rest) =>
      if compound.isEmpty then none
      else
        let acc := acc ++ compound
        if place.afterPseudo then
          if (Piece.skip rest).isEmpty then some (acc, place) else none
        else
          match readCombinator rest with
          | (none, rest) => if rest.isEmpty then some (acc, place) else none
          | (some combinator, rest) =>
            if place.noCombinators then none
            else readCompounds scope inner fuel place (acc ++ [.combinator combinator]) rest

/-- Reads a whole selector, given the reader of those inside it. -/
def readOne (scope : NameScope) (inner : Inner) (lead : Lead) (place : Place)
    (pieces : List Piece) : Option Selector :=
  let pieces := pieces.filter fun piece =>
    match piece with
    | .token (.comment _) => false
    | _ => true
  let leading : Option Combinator × List Piece :=
    if lead = .absolute then (none, pieces)
    else
      match readCombinator (Piece.skip pieces) with
      | (some combinator, rest) => (some combinator, rest)
      | (none, _) => (none, pieces)
  match readCompounds scope inner (leading.2.length + 1) place [] leading.2 with
  | none => none
  | some (written, after) =>
    let components := turn Component.isCombinator written
    let implied : List Component := match leading.1, lead with
      | some combinator, .nested => [.combinator combinator, .nesting]
      | some combinator, _ => [.combinator combinator, .scope]
      | none, .nested =>
        if Component.anyUsesNesting components then [] else [.combinator .descendant, .nesting]
      | none, _ => []
    some (.mk (components ++ implied) after.flags)

/-- Reads a whole selector whose selectors inside are nested at most `depth` deep. -/
def read (scope : NameScope) : Nat → Inner
  | 0 => fun _ _ _ => none
  | depth + 1 => readOne scope (read scope depth)

end Selector

/-- Reads a list of selectors. -/
def Selector.readList (scope : NameScope) (lead : Selector.Lead) (pieces : List Piece) :
    Option (List Selector) :=
  Selector.readStrict (Selector.read scope (Piece.depthOfList pieces + 1)) lead {} pieces

end StyleGraph.Css
