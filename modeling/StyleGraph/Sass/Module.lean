import StyleGraph.FileTree
import StyleGraph.Sass.Braces
import StyleGraph.Sass.Indented

/-!
# Modules of Sass

Sheets use each other as modules. A module is evaluated when it is first used: its rules go to the
output in order, and its variables are there for the sheets that use it; its mixins are not. Rules
inside rules come out beside them, with whole selectors, and groups for some media come out around
the rules that they are written in.
-/

set_option autoImplicit false

namespace StyleGraph.Sass

/-! ## Finding modules -/

/-- The extensions of sheets, in the order in which they are tried. -/
def sheetExtensions : List String := ["sass", "scss", "css"]

/-- A path without the extension of its file name. -/
def withoutExtension (path : String) : String :=
  match Path.extension? path with
  | some extension => String.ofList (path.toList.take (path.length - (extension.length + 1)))
  | none => path

/-- The file at a path, or the partial that it stands for. -/
def fileOrPartial? (tree : FileTree) (path : String) : Option String :=
  let (directory, name) := Text.cutAfterLast '/' path.toList
  let part := String.ofList (directory ++ '_' :: name)
  if tree.isFile path then some path else if tree.isFile part then some part else none

/-- The file at a path to which an extension is added. Files for imports alone come first. -/
def sheetAt? (tree : FileTree) (path : String) : Option String :=
  let stem := withoutExtension path
  let tails := sheetExtensions.map (".import." ++ ·) ++ sheetExtensions.map ("." ++ ·)
  tails.findSome? fun tail => fileOrPartial? tree (stem ++ tail)

/-- The file of a module, looked for beside the sheet that uses it and in further directories. -/
def findModule? (tree : FileTree) (loadPaths : List String) (user url : String) : Option String :=
  let nearby := Path.join ((Path.parent? user).getD "") url
  match Path.extension? url with
  | some extension =>
    if sheetExtensions.contains extension then
      (fileOrPartial? tree (withoutExtension nearby ++ ".import." ++ extension)).or
        (fileOrPartial? tree nearby)
    else searchFrom nearby
  | none => searchFrom nearby
where
  /-- A sheet at a path, or the index of the directory there. -/
  sheetOrIndex? (path : String) : Option String :=
    (sheetAt? tree path).or
      (if tree.isDirectory path then sheetAt? tree (Path.join path "index") else none)
  /-- The sheet at a path, or in one of the further directories. -/
  searchFrom (path : String) : Option String :=
    (sheetOrIndex? path).or
      (loadPaths.findSome? fun directory => sheetOrIndex? (Path.join directory url))

/-! ## Evaluation -/

/-- A rule as it comes out. -/
structure OutputRule where
  selectors : List Selector
  /-- Properties and comments, as they are written. -/
  lines : List String := []
  /-- Whether an empty line follows. -/
  endsGroup : Bool := false
  deriving Repr, Inhabited

/-- What comes out. -/
inductive Output
  | rule (rule : OutputRule)
  /-- Rules for some media, and whether an empty line follows. -/
  | media (query : String) (rules : List OutputRule) (endsGroup : Bool)
  | comment (text : String)
  deriving Repr, Inhabited

/-- The same with an empty line after it. -/
def Output.asLast : Output → Output
  | .rule own => .rule { own with endsGroup := true }
  | .media query rules _ => .media query rules true
  | .comment text => .comment text

/-- The rule that comes out, if it is one. -/
def Output.rule? : Output → Option OutputRule
  | .rule own => some own
  | _ => none

/-- Statements under a name, with parameters, each perhaps with a value of its own. -/
structure Mixin where
  parameters : List (String × Option Expr)
  body : List Statement
  deriving Inhabited

/-- Variables with their values. -/
abbrev Variables := List (String × Value)

/-- The value of a variable. -/
def Variables.get? (known : Variables) (name : String) : Option Value :=
  (known.find? fun entry => entry.1 = name).map Prod.snd

/-- Gives a variable a value. -/
def Variables.put (known : Variables) (name : String) (value : Value) : Variables :=
  if known.any fun entry => entry.1 = name then
    known.map fun entry => if entry.1 = name then (name, value) else entry
  else known ++ [(name, value)]

/-- What a sheet sees while it is evaluated. -/
structure Frame where
  /-- The variables of the whole sheet. -/
  outer : Variables := []
  /-- The variables of the rules around, the innermost rule first. -/
  inner : List Variables := []
  /-- The modules in use, by their names. -/
  modules : List (String × Variables) := []
  /-- The modules in use without a name. -/
  unnamed : List Variables := []
  /-- The mixins of the sheet, the last one first. -/
  mixins : List (String × Mixin) := []
  deriving Inhabited

namespace Frame

/-- Whether a variable is for its module alone. -/
def isPrivate (name : String) : Bool := name.toList.head? = some '-'

/-- The value of a variable without a module. -/
def get? (frame : Frame) (name : String) : Option Value :=
  let own := (frame.inner ++ [frame.outer]).findSome? fun scope => scope.get? name
  own.or (if isPrivate name then none else frame.unnamed.findSome? fun module => module.get? name)

/-- The value of a variable. -/
def look (frame : Frame) (space : Option String) (name : String) : Except Refusal Value :=
  match space with
  | none =>
    match frame.get? name with
    | some value => .ok value
    | none => .error (.undefinedVariable name)
  | some space =>
    match frame.modules.find? fun module => module.1 = space with
    | none => .error (.undefinedModule space)
    | some (_, known) =>
      match if isPrivate name then none else known.get? name with
      | some value => .ok value
      | none => .error (.undefinedVariable name)

/-- Gives a value to a variable of the innermost rule around that has it, or else of the innermost
rule. -/
def putInner (name : String) (value : Value) : List Variables → List Variables
  | [] => []
  | scopes =>
    if scopes.any fun scope => (scope.get? name).isSome then
      let before := scopes.takeWhile fun scope => (scope.get? name).isNone
      match scopes.drop before.length with
      | scope :: after => before ++ scope.put name value :: after
      | [] => before
    else
      match scopes with
      | scope :: after => scope.put name value :: after
      | [] => []

/-- Gives a variable a value. A default counts only while there is no other value. -/
def assign (frame : Frame) (name : String) (value : Value) (isDefault isGlobal : Bool) : Frame :=
  let global := isGlobal || frame.inner.isEmpty
  let known := if global then frame.outer.get? name else frame.get? name
  if isDefault && known.any (!·.isNull) then frame
  else if global then { frame with outer := frame.outer.put name value }
  else { frame with inner := putInner name value frame.inner }

end Frame

/-- The value of a variable's statement or of a parameter. -/
def Frame.valueOf (frame : Frame) (expr : Expr) : Except Refusal Value := do
  let value ← expr.value frame.look
  value.divided

/-- What the parameters of a mixin stand for: what is given by name, then in order, then their own
values, in which earlier parameters may occur. -/
def Mixin.bind (mixin : Mixin) (frame : Frame) (args : List (Option String × Expr)) :
    Except Refusal Variables := do
  let inOrder := args.takeWhile fun arg => arg.1.isNone
  let named := args.drop inOrder.length
  let known := mixin.parameters.map Prod.fst
  let apart := decide (named.map Prod.fst).Nodup && named.all fun arg =>
    arg.1.any fun name => (known.drop inOrder.length).contains name
  if inOrder.length > known.length || !apart then refuse
  else
    let start ← (known.zip inOrder).foldlM (fun bound (name, _, expr) => do
      let value ← frame.valueOf expr
      .ok (bound ++ [(name, value)])) []
    (mixin.parameters.drop inOrder.length).foldlM (fun bound (name, own) => do
      let value ← match named.find? fun arg => arg.1 = some name, own with
        | some (_, expr), _ => frame.valueOf expr
        | none, some expr => Frame.valueOf { frame with inner := [bound] } expr
        | none, none => refuse
      .ok (bound ++ [(name, value)])) start

/-- The written form of a part of a media query. -/
def MediaPart.css (frame : Frame) : MediaPart → Except Refusal String
  | .word text => .ok text
  | .feature name none => .ok ("(" ++ name ++ ")")
  | .feature name (some expr) => do
    let value ← expr.value frame.look
    .ok ("(" ++ name ++ ": " ++ value.css ++ ")")

/-- The written form of media queries. -/
def mediaText (frame : Frame) (queries : List (List MediaPart)) : Except Refusal String := do
  let texts ← queries.mapM fun query => do
    let parts ← query.mapM (MediaPart.css frame)
    .ok (String.intercalate " " parts)
  .ok (String.intercalate ", " texts)

/-- What a statement does: what the variables become, the lines of the rule around, and what comes
out after that rule. -/
structure Effect where
  frame : Frame
  lines : List String := []
  after : List Output := []
  deriving Inhabited

/-- Runs statements one after the other. -/
def runAll (run : Frame → Statement → Except Refusal Effect) (frame : Frame)
    (statements : List Statement) : Except Refusal Effect :=
  statements.foldlM (fun effect statement => do
    let next ← run effect.frame statement
    .ok { next with lines := effect.lines ++ next.lines, after := effect.after ++ next.after })
    { frame }

/-- Evaluates a statement inside a rule with the given selectors, or outside all rules. `depth`
bounds how deep statements stand inside each other, those of mixins included. -/
def Statement.evaluate : Nat → Option (List Selector) → Frame → Statement → Except Refusal Effect
  | 0, _, _, _ => refuse
  | depth + 1, parents, frame, statement =>
    match statement with
    | .variable name value isDefault isGlobal => do
      let value ← frame.valueOf value
      .ok { frame := frame.assign name value isDefault isGlobal }
    | .declaration name value => do
      let value ← value.value frame.look
      if parents.isNone then refuse
      else .ok { frame, lines := if value.isNull then [] else [name ++ ": " ++ value.css ++ ";"] }
    | .custom name value =>
      if parents.isNone then refuse else .ok { frame, lines := [name ++ ": " ++ value ++ ";"] }
    | .comment text =>
      .ok (if parents.isNone then { frame, after := [.comment text] } else { frame, lines := [text] })
    | .rule selectors body => do
      let selectors ← Selector.resolve parents selectors
      let effect ← runAll (Statement.evaluate depth (some selectors))
        { frame with inner := [] :: frame.inner } body
      let outputs := Output.rule { selectors, lines := effect.lines } :: effect.after
      .ok {
        frame := { effect.frame with inner := effect.frame.inner.drop 1 }
        after :=
          -- an empty line follows what comes out of a rule outside all others
          if parents.isSome then outputs
          else outputs.dropLast ++ (outputs.getLast?.map Output.asLast).toList }
    | .mixin name parameters body =>
      if parents.isSome || !frame.inner.isEmpty then refuse
      else .ok { frame := { frame with mixins := (name, ⟨parameters, body⟩) :: frame.mixins } }
    | .included name args =>
      match frame.mixins.find? fun entry => entry.1 = name with
      | none => refuse
      | some (_, found) => do
        let bound ← found.bind frame args
        let effect ← runAll (Statement.evaluate depth parents) { frame with inner := [bound] }
          found.body
        .ok { effect with frame := { effect.frame with inner := frame.inner } }
    | .media queries body => do
      let query ← mediaText frame queries
      let effect ← runAll (Statement.evaluate depth parents)
        { frame with inner := [] :: frame.inner } body
      let own := (parents.map fun selectors => { selectors, lines := effect.lines }).toList
      let rules := effect.after.filterMap Output.rule?
      -- media inside media would have to be joined
      if rules.length = effect.after.length then
        .ok {
          frame := { effect.frame with inner := effect.frame.inner.drop 1 }
          after := [.media query (own ++ rules) false] }
      else refuse
    | .use _ _ => refuse

/-- What has been evaluated. -/
structure Session where
  /-- The files that were read, in order, each once. -/
  loaded : List String := []
  /-- The variables of the modules that were evaluated, by the paths of their files. -/
  modules : List (String × Variables) := []
  /-- What came out. -/
  output : List Output := []
  deriving Inhabited

/-- How a file is written, by its name. -/
def Layout.ofPath (path : String) : Layout :=
  match Path.extension? path with
  | some "sass" => .indented
  | some "css" => .plain
  | _ => .braces

/-- The statements that a text consists of. A mark of the byte order does not count. -/
def statementsOf (layout : Layout) (text : String) : Except Refusal (List Statement) :=
  let cs := text.toList
  let cs := if cs.head?.any fun c => c.toNat == 0xfeff then cs.drop 1 else cs
  match layout with
  | .braces => statementsOfBraces cs
  | .indented => statementsOfIndented cs
  | .plain => do
    let statements ← statementsOfBraces cs
    if arePlain false statements then .ok statements else refuse

/-- Whether a statement may come before the use of a module. -/
def Statement.isPreamble : Statement → Bool
  | .use _ _ | .variable _ _ _ _ | .comment _ => true
  | _ => false

/-- Evaluates a sheet whose users are given, each path once. `depth` bounds the length of a chain of
modules. -/
def evaluateSheet (tree : FileTree) (loadPaths : List String) :
    Nat → List String → Layout → String → Session → Except Refusal (Session × Variables)
  | 0, _, _, path, _ => .error (.moduleLoop path)
  | depth + 1, users, layout, path, session => do
    let text ←
      match tree.readText path with
      | .ok text => .ok text
      | .error _ => .error (.unread path)
    let statements ← statementsOf layout text
    if (statements.dropWhile Statement.isPreamble).any fun statement =>
        match statement with
        | .use _ _ => true
        | _ => false
    then refuse
    else
      let loaded :=
        let cleaned := Path.clean path
        if session.loaded.contains cleaned then session.loaded else session.loaded ++ [cleaned]
      let (session, frame) ← statements.foldlM (fun (session, frame) statement =>
        match statement with
        | .use url space => do
          let target ←
            match findModule? tree loadPaths path url with
            | some target => .ok target
            | none => .error (.missingModule url)
          let key := Path.clean target
          if (path :: users).any fun user => Path.clean user = key then .error (.moduleLoop key)
          else
            let (session, known) ←
              match session.modules.find? fun module => module.1 = key with
              | some (_, known) => .ok (session, known)
              | none =>
                evaluateSheet tree loadPaths depth (path :: users) (Layout.ofPath target) target
                  session
            match space with
            | none => .ok (session, { frame with unnamed := frame.unnamed ++ [known] })
            | some name =>
              if frame.modules.any fun module => module.1 = name then .error (.repeatedModule name)
              else .ok (session, { frame with modules := frame.modules ++ [(name, known)] })
        | statement => do
          let effect ← statement.evaluate (text.length + 256) none frame
          .ok ({ session with output := session.output ++ effect.after }, effect.frame))
        ({ session with loaded }, ({} : Frame))
      .ok ({ session with modules := session.modules ++ [(Path.clean path, frame.outer)] },
        frame.outer)

/-! ## Writing -/

/-- Whether a selector stands for other rules only, as a name after a percent sign does. -/
def Selector.isPlaceholder (selector : Selector) : Bool :=
  selector.parts.any fun part => match part with
    | .compound text => text.toList.contains '%'
    | _ => false

/-- A rule without the selectors that do not come out, unless nothing of it is left. -/
def OutputRule.shown? (rule : OutputRule) : Option OutputRule :=
  let selectors := rule.selectors.filter fun selector => !selector.isPlaceholder
  if rule.lines.isEmpty || selectors.isEmpty then none else some { rule with selectors }

/-- The written form of a rule, indented. -/
def OutputRule.text (indent : String) (rule : OutputRule) : String :=
  indent ++ Selector.listText rule.selectors ++ " \x7b\n" ++
    String.join (rule.lines.map fun line => indent ++ "  " ++ line ++ "\n") ++ indent ++ "\x7d\n"

/-- The written form of what comes out, and whether an empty line follows. Nothing for rules without
lines. -/
def Output.text? : Output → Option (String × Bool)
  | .comment text => some (text ++ "\n", false)
  | .rule own => own.shown?.map fun shown => (shown.text "", own.endsGroup)
  | .media query rules endsGroup =>
    match rules.filterMap OutputRule.shown? with
    | [] => none
    | shown =>
      some ("@media " ++ query ++ " \x7b\n" ++ String.join (shown.map (OutputRule.text "  ")) ++
        "\x7d\n", endsGroup)

/-- The written form of all that came out. -/
def outputText (output : List Output) : String :=
  let step (acc : List String × Bool) (item : Output) : List String × Bool :=
    match item.text? with
    | some (text, endsGroup) => (acc.1 ++ (if acc.2 then ["\n", text] else [text]), endsGroup)
    | none => acc
  String.join (output.foldl step ([], false)).1

/-- A text that is not ASCII says so. -/
def withCharset (css : String) : String :=
  if css.toList.all fun c => c.toNat < 0x80 then css else "@charset \"UTF-8\";\n" ++ css

/-- A compiled sheet, and the files that were read for it. -/
structure CompiledSheet where
  css : String
  loaded : List String
  deriving DecidableEq, Repr, Inhabited

/-- Compiles the sheet at a path. Without a layout that of the file's name counts. -/
def compile (tree : FileTree) (loadPaths : List String) (layout : Option Layout) (path : String) :
    Except Refusal CompiledSheet := do
  let layout := layout.getD (Layout.ofPath path)
  let (session, _) ← evaluateSheet tree loadPaths (tree.files.length + 1) [] layout path {}
  .ok { css := withCharset (outputText session.output), loaded := session.loaded }

end StyleGraph.Sass
