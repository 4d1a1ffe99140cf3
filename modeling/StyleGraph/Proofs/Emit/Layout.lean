import StyleGraph.Proofs.Emit.Linkage
import StyleGraph.Proofs.Text.Cut

/-!
# The layout of generated modules

A generated module is laid out line by line: every declaration begins a line, and whatever a
declaration has on further lines is indented or closes a block (`isBlock`). So the names that are
bound at the top of a module can be read off its source by the first words of its lines
(`topNames`), with nothing known of how the module came about.

## What is proved

`topNames_render`: what is read off the source of a module is what its imports, its helper and its
statements bind, in that order, for all texts and specifiers in it.
-/

set_option autoImplicit false

namespace StyleGraph.Emit

/-! ## Reading names -/

/-- How the declarations of generated modules begin. -/
def declarationLeads : List String := ["import * as ", "function ", "const ", "export const "]

/-- The name that a line declares, if it begins a declaration. -/
def declaredName? (line : List Char) : Option String :=
  declarationLeads.findSome? fun lead =>
    (Text.stripStart? lead.toList line).map fun rest => String.ofList (rest.takeWhile isNameChar)

/-- The names that the lines of a text declare. -/
def namesIn (text : List Char) : List String := (Text.cutAll '\n' text).filterMap declaredName?

/-- The names that are bound at the top of a generated module. -/
def topNames (source : String) : List String := namesIn source.toList

/-- Of two beginnings that do not agree a text has one at most. -/
theorem stripStart?_of_apart {start other : List Char}
    (apart : ¬ other <+: start ∧ ¬ start <+: other) (rest : List Char) :
    Text.stripStart? other (start ++ rest) = none := by
  rw [Option.eq_none_iff_forall_ne_some]
  intro behind stripped
  have begins : other <+: start ++ rest :=
    ⟨behind, (Text.eq_append_of_stripStart? stripped).symm⟩
  rcases List.prefix_or_prefix_of_prefix begins (List.prefix_append start rest) with
    inside | inside
  · exact apart.1 inside
  · exact apart.2 inside

/-- A line that begins in another way than declarations do declares nothing. -/
theorem declaredName?_of_apart (start : List Char)
    (apart : ∀ lead ∈ declarationLeads, ¬ lead.toList <+: start ∧ ¬ start <+: lead.toList)
    (rest : List Char) : declaredName? (start ++ rest) = none := by
  refine List.findSome?_eq_none_iff.mpr fun lead mem => ?_
  rw [stripStart?_of_apart (apart lead mem), Option.map_none]

/-- No beginning of a declaration is the beginning of another one, so at most one of them is found
at any place. -/
theorem declarationLeads_apart : ∀ lead ∈ declarationLeads, ∀ other ∈ declarationLeads,
    other ≠ lead → ¬ other.toList <+: lead.toList ∧ ¬ lead.toList <+: other.toList := by
  simp [declarationLeads]

/-- The name behind the beginning of a declaration is declared. No beginning of a declaration begins
another one, so only this one is found. -/
theorem declaredName?_lead {lead : String} (mem : lead ∈ declarationLeads) {name : List Char}
    (named : ∀ c ∈ name, isNameChar c = true) {stop : Char} (stops : isNameChar stop = false)
    (rest : List Char) :
    declaredName? (lead.toList ++ (name ++ stop :: rest)) = some (String.ofList name) := by
  obtain ⟨before, after, split⟩ := List.append_of_mem mem
  refine List.findSome?_eq_some_iff.mpr ⟨before, lead, after, split, ?_, ?_⟩
  · rw [Text.stripStart?_append, Option.map_some, List.takeWhile_append_of_pos named,
      List.takeWhile_cons_of_neg (by rw [stops]; exact Bool.false_ne_true), List.append_nil]
  · intro other listed
    have known : other ∈ declarationLeads := by
      rw [split]
      exact List.mem_append_left _ listed
    have different : other ≠ lead := by
      rintro rfl
      have nodup : declarationLeads.Nodup := by decide
      rw [split] at nodup
      exact (List.nodup_append.mp nodup).2.2 other listed other List.mem_cons_self rfl
    rw [stripStart?_of_apart (declarationLeads_apart lead mem other known different),
      Option.map_none]

/-- The empty text declares nothing. -/
theorem namesIn_nil : namesIn [] = [] := by
  simp [namesIn, Text.cutAll, declaredName?, declarationLeads, Text.stripStart?]

/-- A text and what stands on the lines behind it declare their names one after the other. -/
theorem namesIn_append_line (text rest : List Char) :
    namesIn (text ++ '\n' :: rest) = namesIn text ++ namesIn rest := by
  rw [namesIn, Text.cutAll_append_sep, List.filterMap_append, namesIn, namesIn]

/-! ## Blocks -/

/-- Every line but the first is indented or closes a block, and so is the first if it is `fresh`. No
line is empty. -/
def isBlockFrom (fresh : Bool) : List Char → Bool
  | [] => !fresh
  | c :: rest => (!fresh || c == ' ' || c == '}') && isBlockFrom (c == '\n') rest

/-- A text that has begun its first line. -/
def isBlock (text : List Char) : Bool := isBlockFrom false text

/-- Text that leaves its blocks as it found them may be followed by more of its kind. -/
theorem isBlockFrom_append {fresh : Bool} {text rest : List Char}
    (block : isBlockFrom fresh text = true) (restBlock : isBlock rest = true) :
    isBlockFrom fresh (text ++ rest) = true := by
  induction text generalizing fresh with
  | nil =>
    cases fresh with
    | false => exact restBlock
    | true => cases block
  | cons c text ih =>
    simp only [isBlockFrom, Bool.and_eq_true] at block
    simp only [List.cons_append, isBlockFrom, block.1, ih block.2, Bool.and_self]

/-- The same from the beginning of a line. -/
theorem isBlock_append {text rest : List Char} (block : isBlock text = true)
    (restBlock : isBlock rest = true) : isBlock (text ++ rest) = true :=
  isBlockFrom_append block restBlock

/-- Pieces that are joined are text of this kind if all pieces are and what is between them is. -/
theorem isBlock_joinWith {lead : List Char} {pieces : List (List Char)}
    (leadBlock : isBlock lead = true) (blocks : ∀ piece ∈ pieces, isBlock piece = true) :
    isBlock (Text.joinWith lead pieces) = true := by
  induction pieces with
  | nil => rfl
  | cons piece pieces ih =>
    have block := blocks piece List.mem_cons_self
    cases pieces with
    | nil => exact block
    | cons next others =>
      have joined := ih fun other mem => blocks other (List.mem_cons_of_mem _ mem)
      exact isBlock_append (isBlock_append block leadBlock) joined

/-- A single line is a block. -/
theorem isBlock_of_not_mem {text : List Char} (line : '\n' ∉ text) : isBlock text = true := by
  induction text with
  | nil => rfl
  | cons c text ih =>
    obtain ⟨differs, line⟩ := List.ne_and_not_mem_of_not_mem_cons line
    have stays : (c == '\n') = false := beq_eq_false_iff_ne.mpr (Ne.symm differs)
    simp only [isBlock, isBlockFrom, stays, Bool.not_false, Bool.true_or, Bool.true_and]
    exact ih line

/-- A block does not end with a line end. -/
theorem isBlock_append_line (text : List Char) : isBlock (text ++ ['\n']) = false := by
  suffices ended : ∀ fresh, isBlockFrom fresh (text ++ ['\n']) = false from ended false
  induction text with
  | nil => decide
  | cons c text ih =>
    intro fresh
    simp only [List.cons_append, isBlockFrom, ih, Bool.and_false]

/-- A line that is indented or closes a block declares nothing. -/
theorem declaredName?_of_inner {c : Char} (inner : c = ' ' ∨ c = '}') (rest : List Char) :
    declaredName? (c :: rest) = none := by
  rcases inner with rfl | rfl
  · exact declaredName?_of_apart [' '] (by simp [declarationLeads]) rest
  · exact declaredName?_of_apart ['}'] (by simp [declarationLeads]) rest

/-- Nothing is declared on the further lines of a block, nor on a first line that is fresh. It is by
induction on the text: whether a line is fresh is all that the scan remembers of what came before.
-/
theorem cutAll_of_isBlockFrom {fresh : Bool} {text : List Char}
    (block : isBlockFrom fresh text = true) :
    ∃ others, Text.cutAll '\n' text = text.takeWhile (· != '\n') :: others ∧
      (∀ line ∈ others, declaredName? line = none) ∧
      (fresh = true → declaredName? (text.takeWhile (· != '\n')) = none) := by
  induction text generalizing fresh with
  | nil =>
    cases fresh with
    | false => exact ⟨[], rfl, by simp, by simp⟩
    | true => cases block
  | cons c text ih =>
    simp only [isBlockFrom, Bool.and_eq_true, Bool.or_eq_true, Bool.not_eq_true',
      beq_iff_eq] at block
    obtain ⟨first, tailBlock⟩ := block
    obtain ⟨others, cut, silent, freshSilent⟩ := ih tailBlock
    by_cases ends : c = '\n'
    · subst ends
      refine ⟨Text.cutAll '\n' text, by simp [Text.cutAll], ?_, ?_⟩
      · rw [cut]
        exact List.forall_mem_cons.mpr ⟨freshSilent (beq_self_eq_true _), silent⟩
      · rintro rfl
        exact absurd first (by decide)
    · refine ⟨others, ?_, silent, ?_⟩
      · rw [Text.cutAll, if_neg ends, cut,
          List.takeWhile_cons_of_pos (p := (· != '\n')) (bne_iff_ne.mpr ends)]
      · rintro rfl
        rw [List.takeWhile_cons_of_pos (p := (· != '\n')) (bne_iff_ne.mpr ends)]
        refine declaredName?_of_inner ?_ _
        simpa using first

/-- A block declares what its first line declares. -/
theorem namesIn_of_isBlock {text : List Char} (block : isBlock text = true) :
    namesIn text = (declaredName? (text.takeWhile (· != '\n'))).toList := by
  obtain ⟨others, cut, silent, _⟩ := cutAll_of_isBlockFrom block
  rw [namesIn, cut, List.filterMap_cons, List.filterMap_eq_nil_iff.mpr silent]
  cases declaredName? (text.takeWhile (· != '\n')) <;> rfl

/-- **A declaration declares its name**, whatever stands in it. The name ends at the first character
that no name has, so what follows can only declare something on lines of its own, and it has none.
-/
theorem namesIn_declaration {lead : String} (mem : lead ∈ declarationLeads) {name : List Char}
    (named : ∀ c ∈ name, isNameChar c = true) {stop : Char} (stops : isNameChar stop = false)
    (goesOn : stop ≠ '\n') {rest : List Char} (block : isBlock rest = true) :
    namesIn (lead.toList ++ (name ++ stop :: rest)) = [String.ofList name] := by
  have leadLine : ∀ c ∈ lead.toList, (c != '\n') = true := by
    have lines : ∀ lead ∈ declarationLeads, lead.toList.all (· != '\n') = true := by
      simp [declarationLeads]
    exact List.all_eq_true.mp (lines lead mem)
  have nameLine : ∀ c ∈ name, (c != '\n') = true := by
    intro c listed
    refine bne_iff_ne.mpr ?_
    rintro rfl
    exact absurd (named _ listed) (by decide)
  have first : (lead.toList ++ (name ++ stop :: rest)).takeWhile (· != '\n') =
      lead.toList ++ (name ++ stop :: rest.takeWhile (· != '\n')) := by
    rw [List.takeWhile_append_of_pos leadLine, List.takeWhile_append_of_pos nameLine,
      List.takeWhile_cons_of_pos (p := (· != '\n')) (bne_iff_ne.mpr goesOn)]
  have line : '\n' ∉ lead.toList ++ (name ++ [stop]) := by
    simp only [List.mem_append, List.mem_singleton, not_or]
    refine ⟨fun listed => ?_, fun listed => ?_, Ne.symm goesOn⟩
    · exact absurd (leadLine _ listed) (by decide)
    · exact absurd (nameLine _ listed) (by decide)
  have whole : isBlock (lead.toList ++ (name ++ stop :: rest)) = true := by
    have joined := isBlock_append (isBlock_of_not_mem line) block
    rwa [List.append_assoc, List.append_assoc, List.singleton_append] at joined
  rw [namesIn_of_isBlock whole, first, declaredName?_lead mem named stops, Option.toList_some]

/-! ## Texts that end their line -/

/-- Whatever stands behind a text, the text declares the same names before it. -/
def Declares (source : String) (names : List String) : Prop :=
  ∀ rest, namesIn (source.toList ++ rest) = names ++ namesIn rest

namespace Declares

variable {source other : String} {names others : List String}

/-- What a source declares are its names at the top. -/
theorem topNames_eq (declares : Declares source names) : topNames source = names := by
  have all := declares []
  rwa [List.append_nil, namesIn_nil, List.append_nil] at all

/-- The empty source declares nothing. -/
theorem empty : Declares "" [] := fun _ => rfl

/-- What two sources declare, one behind the other. The first has to end its line, which is part of
what it means to declare names. -/
theorem append (declares : Declares source names) (declaresOther : Declares other others) :
    Declares (source ++ other) (names ++ others) := by
  intro rest
  rw [String.toList_append, List.append_assoc, declares, declaresOther, List.append_assoc]

/-- A text that ends its line. -/
theorem of_line (line : List Char) (written : source.toList = line ++ ['\n'])
    (declared : namesIn line = names) : Declares source names := by
  intro rest
  rw [written, List.append_assoc, List.singleton_append, namesIn_append_line, declared]

/-- The same for any number of sources. -/
theorem join {α : Type} {render : α → String} {declared : α → List String} {items : List α}
    (each : ∀ item ∈ items, Declares (render item) (declared item)) :
    Declares (String.join (items.map render)) (items.flatMap declared) := by
  induction items with
  | nil => exact empty
  | cons item items ih =>
    rw [List.map_cons, String.join_cons, List.flatMap_cons]
    exact (each item List.mem_cons_self).append
      (ih fun other mem => each other (List.mem_cons_of_mem _ mem))

end Declares

/-! ## Expressions and statements -/

/-- A quoted text has no line break: it is written as an escape. All control characters are written
with digits, and the others are no line breaks. -/
theorem newline_not_mem_quote (text : String) : '\n' ∉ (Text.quote text).toList := by
  have escaped : ∀ c : Char, '\n' ∉ Text.escapeChar c := by
    intro c
    have digit : ∀ n < 16, '\n' ≠ Text.hexDigit n := by decide
    unfold Text.escapeChar
    split
    case h_8 other _ _ =>
      split
      next control =>
        have upper := digit (c.toNat / 16) (by omega)
        have lower := digit (c.toNat % 16) (by omega)
        simp [upper, lower]
      next => simpa [eq_comm] using other
    all_goals decide
  rw [Text.quote, String.toList_ofList, Text.quoteChars]
  simp only [List.cons_append, List.mem_cons, List.mem_append, List.mem_flatMap,
    List.not_mem_nil, or_false]
  rintro (quote | ⟨c, _, mem⟩ | quote)
  · exact absurd quote (by decide)
  · exact escaped c mem
  · exact absurd quote (by decide)

mutual

/-- The parts of an expression that are written as they are and need not be names. -/
def Expr.verbatim : Expr → List String
  | .ident name => [name]
  | .str _ => []
  | .member object _ => [object]
  | .defaultOrNamespace module => [module]
  | .modulesOf modules => modules
  | .join items => Expr.verbatimAll items
  | .raw source => [source]

/-- The parts of several expressions that are written as they are. -/
def Expr.verbatimAll : List Expr → List String
  | [] => []
  | item :: items => item.verbatim ++ Expr.verbatimAll items

end

/-- A call of the helper stays on its line. -/
theorem newline_not_mem_helperCall {module : String} (line : '\n' ∉ module.toList) :
    '\n' ∉ (helperCall module).toList := by
  have lead : '\n' ∉ (modulesHelperName ++ "(").toList := by simp [modulesHelperName]
  simp only [helperCall, String.toList_append (s := modulesHelperName ++ "(" ++ module),
    String.toList_append (s := modulesHelperName ++ "("), List.mem_append, not_or]
  exact ⟨⟨lead, line⟩, by decide⟩

mutual

/-- **An expression is written on one line**, if what it takes as it is stands on one. The induction
is on the expression. Texts are written with their line breaks escaped, so only parts that are taken
as they are could break a line. -/
theorem Expr.newline_not_mem_render : ∀ {expr : Expr},
    (∀ part ∈ expr.verbatim, '\n' ∉ part.toList) → '\n' ∉ expr.render.toList
  | .ident name => by
    intro lines
    rw [render]
    exact lines name (List.mem_singleton_self _)
  | .str value => by
    intro _
    rw [render]
    exact newline_not_mem_quote value
  | .member object property => by
    intro lines
    have line := lines object (List.mem_singleton_self _)
    rw [render]
    split
    next valid =>
      have named : '\n' ∉ property.toList := not_mem_of_isIdentifier valid (by decide)
      simp [line, named]
    next => simp [line, newline_not_mem_quote]
  | .defaultOrNamespace module => by
    intro lines
    have line := lines module (List.mem_singleton_self _)
    show '\n' ∉ ("typeof " ++ module ++ ".default !== \"undefined\" ? " ++ module ++
      ".default : " ++ module).toList
    simp [line]
  | .modulesOf modules => by
    intro lines
    have calls : '\n' ∉ (String.join (modules.map fun m => ", " ++ helperCall m)).toList := by
      rw [String.toList_join]
      intro mem
      obtain ⟨_, listed, mem⟩ := List.mem_flatMap.mp mem
      obtain ⟨module, known, rfl⟩ := List.mem_map.mp listed
      rw [String.toList_append, List.mem_append] at mem
      rcases mem with comma | call
      · revert comma
        decide
      · exact newline_not_mem_helperCall (lines module known) call
    match modules with
    | [module] =>
      rw [render]
      exact newline_not_mem_helperCall (lines module (List.mem_singleton_self _))
    | [] =>
      simp only [render]
      simp
    | first :: second :: rest =>
      simp only [render]
      simpa using calls
  | .join items => by
    intro lines
    have each := Expr.newline_not_mem_renderAll lines
    have joined : '\n' ∉ (String.intercalate ", " (renderAll items)).toList := by
      rw [Text.toList_intercalate]
      refine Text.not_mem_joinWith (by decide) fun piece mem => ?_
      obtain ⟨text, listed, rfl⟩ := List.mem_map.mp mem
      exact each text listed
    rw [render]
    simp only [String.toList_append, List.mem_append, not_or]
    exact ⟨⟨by decide, joined⟩, by decide⟩
  | .raw source => by
    intro lines
    rw [render]
    exact lines source (List.mem_singleton_self _)

/-- The items of an expression stay on their line, by the recursion of the printer. -/
theorem Expr.newline_not_mem_renderAll : ∀ {items : List Expr},
    (∀ part ∈ Expr.verbatimAll items, '\n' ∉ part.toList) →
      ∀ text ∈ Expr.renderAll items, '\n' ∉ text.toList
  | [] => by
    intro _ text mem
    rw [renderAll] at mem
    exact absurd mem List.not_mem_nil
  | item :: items => by
    intro lines text mem
    rw [verbatimAll] at lines
    obtain ⟨own, others⟩ := List.forall_mem_append.mp lines
    rw [renderAll] at mem
    rcases List.mem_cons.mp mem with rfl | mem
    · exact Expr.newline_not_mem_render own
    · exact Expr.newline_not_mem_renderAll others text mem

end

/-- The names that a statement binds. -/
def Stmt.binds : Stmt → List String
  | .const name _ => [name]
  | .exportConst name _ => [name]
  | .raw source => topNames source

/-- The names of a statement are names, and only source that is taken as it is has more than one
line. -/
def Stmt.IsLaid : Stmt → Prop
  | .const name init => (∀ c ∈ name.toList, isNameChar c = true) ∧ '\n' ∉ init.render.toList
  | .exportConst name init =>
    (∀ c ∈ name.toList, isNameChar c = true) ∧ '\n' ∉ init.render.toList
  | .raw source => isBlock source.toList = true

/-- A declaration on a line of its own. -/
theorem declares_line (lead : String) {name source : String} (rest : List Char)
    (written : source.toList = lead.toList ++ (name.toList ++ ' ' :: rest) ++ ['\n'])
    (mem : lead ∈ declarationLeads) (named : ∀ c ∈ name.toList, isNameChar c = true)
    (line : '\n' ∉ rest) : Declares source [name] := by
  refine .of_line _ written ?_
  rw [namesIn_declaration mem named (by decide) (by decide) (isBlock_of_not_mem line),
    String.ofList_toList]

/-- A constant declares its name. What it is set to stays on the same line, so it cannot look like a
declaration. -/
theorem declares_constant {lead name init : String} (mem : lead ∈ declarationLeads)
    (named : ∀ c ∈ name.toList, isNameChar c = true) (line : '\n' ∉ init.toList) :
    Declares (lead ++ name ++ " = " ++ init ++ ";\n") [name] :=
  declares_line lead ("= ".toList ++ init.toList ++ [';']) (by simp) mem named
    (by simpa using line)

/-- An import declares the name that it binds. -/
theorem declares_import {item : NamespaceImport}
    (named : ∀ c ∈ item.name.toList, isNameChar c = true) :
    Declares ("import * as " ++ item.name ++ " from " ++ Text.quote item.specifier ++ ";\n")
      [item.name] :=
  declares_line "import * as "
    ("from ".toList ++ (Text.quote item.specifier).toList ++ [';']) (by simp) (by decide)
    named (by simpa using newline_not_mem_quote item.specifier)

/-- **A statement declares what it binds.** -/
theorem Stmt.declares : ∀ {stmt : Stmt}, stmt.IsLaid → Declares stmt.render stmt.binds
  | .const _ _ => fun laid => declares_constant (by decide) laid.1 laid.2
  | .exportConst _ _ => fun laid => declares_constant (by decide) laid.1 laid.2
  | .raw source => fun block => by
    have ended : Text.endsWith ['\n'] source.toList = false := by
      rw [← Bool.not_eq_true, Text.endsWith, Option.isSome_iff_exists]
      rintro ⟨stem, stripped⟩
      have unblocked := isBlock_append_line stem
      rw [← Text.stripEnd?_eq_some_iff.mp stripped] at unblocked
      rw [IsLaid, unblocked] at block
      cases block
    have written : (Stmt.raw source).render =
        if Text.endsWith ['\n'] source.toList then source else source ++ "\n" := rfl
    rw [written, ended]
    exact .of_line _ String.toList_append rfl

/-! ## Modules -/

/-- The name of the export stands somewhere inside the helper, and what is around it is laid out in
lines. -/
theorem exists_modulesHelper_eq : ∃ lead tail : String,
    (∀ name, modulesHelper name = lead ++ (Text.quote name ++ tail)) ∧
      isBlock lead.toList = true ∧ '\n' ∈ lead.toList ∧
      declaredName? (lead.toList.takeWhile (· != '\n')) = some modulesHelperName ∧
      isBlock tail.toList.dropLast = true ∧ tail.toList.getLast? = some '\n' := by
  refine ⟨?lead, ?tail, fun name => ?written, ?_⟩
  case written =>
    unfold modulesHelper
    iterate 5 rw [String.append_assoc]
  simp only [String.toList_append]
  -- The characters of a literal are had from the list that it stands for, not by decoding it.
  repeat rw [String.toList_ofList]
  decide +kernel

/-- The helper declares itself, whatever the name in it. The lines inside of it are indented, and an
indented line declares nothing at the top. -/
theorem declares_modulesHelper (name : String) :
    Declares (modulesHelper name) [modulesHelperName] := by
  obtain ⟨lead, tail, written, leadBlock, leadLines, first, tailBlock, tailEnds⟩ :=
    exists_modulesHelper_eq
  obtain ⟨inner, ended⟩ := List.getLast?_eq_some_iff.mp tailEnds
  obtain ⟨line, more, split, single⟩ := List.eq_append_cons_of_mem leadLines
  rw [ended, List.dropLast_concat] at tailBlock
  have block : isBlock (lead.toList ++ ((Text.quote name).toList ++ inner)) = true :=
    isBlock_append leadBlock
      (isBlock_append (isBlock_of_not_mem (newline_not_mem_quote name)) tailBlock)
  have passed : ∀ c ∈ line, (c != '\n') = true := by
    intro c mem
    refine bne_iff_ne.mpr ?_
    rintro rfl
    exact single mem
  have firstLine : ∀ rest, (lead.toList ++ rest).takeWhile (· != '\n') = line := by
    intro rest
    rw [split, List.append_assoc, List.takeWhile_append_of_pos passed, List.cons_append,
      List.takeWhile_cons_of_neg (by decide), List.append_nil]
  have own : lead.toList.takeWhile (· != '\n') = line := by
    rw [← firstLine [], List.append_nil]
  refine .of_line (lead.toList ++ ((Text.quote name).toList ++ inner)) ?_ ?_
  · rw [written, String.toList_append, String.toList_append, ended]
    simp only [List.append_assoc]
  · rw [namesIn_of_isBlock block, firstLine, ← own, first, Option.toList_some]

/-- Every part of a module is written on lines of its own. -/
structure Module.IsLaid (module : Module) : Prop where
  imports : ∀ item ∈ module.imports, ∀ c ∈ item.name.toList, isNameChar c = true
  statements : ∀ stmt ∈ module.statements, stmt.IsLaid
  defaultExport : ∀ expr, module.defaultExport = some expr → '\n' ∉ expr.render.toList

/-- The names that a module binds. -/
def Module.binds (module : Module) : List String :=
  module.imports.map NamespaceImport.name ++
    (if module.needsHelper then [modulesHelperName] else []) ++
    module.statements.flatMap Stmt.binds

/-- A line that is no declaration. -/
theorem declares_nothing (start : String) {source : String} (rest : List Char)
    (written : source.toList = start.toList ++ rest ++ ['\n'])
    (apart : ∀ lead ∈ declarationLeads,
      ¬ lead.toList <+: start.toList ∧ ¬ start.toList <+: lead.toList)
    (line : '\n' ∉ start.toList ++ rest) : Declares source [] := by
  refine .of_line _ written ?_
  rw [namesIn, Text.cutAll_of_not_mem line, List.filterMap_cons, declaredName?_of_apart _ apart]
  rfl

/-- **The names that are read off the source of a module are those that it binds**, in order. Each
part of a module ends with its line, so the names that the parts declare add up in order. -/
theorem topNames_render {module : Module} (laid : module.IsLaid) (cssExport : String) :
    topNames (module.render cssExport) = module.binds := by
  have empty : Declares "\n" [] := .of_line [] (by decide) namesIn_nil
  have imports : Declares (String.join (module.imports.map fun item =>
      "import * as " ++ item.name ++ " from " ++ Text.quote item.specifier ++ ";\n"))
      (module.imports.flatMap fun item => [item.name]) :=
    .join fun item mem => declares_import (laid.imports item mem)
  have gap : Declares (if module.imports.isEmpty then "" else "\n") [] := by
    split
    · exact .empty
    · exact empty
  have helper : Declares
      (if module.needsHelper then modulesHelper cssExport ++ "\n" else "")
      (if module.needsHelper then [modulesHelperName] else []) := by
    split
    · exact (declares_modulesHelper cssExport).append empty
    · exact .empty
  have statements : Declares (String.join (module.statements.map Stmt.render))
      (module.statements.flatMap Stmt.binds) :=
    .join fun stmt mem => Stmt.declares (laid.statements stmt mem)
  have reexports : Declares (String.join (module.reexports.map fun specifier =>
      "export * from " ++ Text.quote specifier ++ ";\n"))
      (module.reexports.flatMap fun _ => []) := by
    refine .join fun specifier _ => ?_
    exact declares_nothing "export * from "
      ((Text.quote specifier).toList ++ [';']) (by simp) (by simp [declarationLeads])
      (by simpa using newline_not_mem_quote specifier)
  have default : Declares (module.defaultExport.elim "" fun expr =>
      "export default " ++ expr.render ++ ";\n") [] := by
    cases given : module.defaultExport with
    | some expr =>
      exact declares_nothing "export default " (expr.render.toList ++ [';'])
        (by simp) (by simp [declarationLeads]) (by simpa using laid.defaultExport expr given)
    | none => exact .empty
  -- each part ends with its line, so what the parts declare adds up in order
  have whole := ((((imports.append gap).append helper).append statements).append
    reexports).append default
  refine (congrArg topNames ?_).trans (whole.topNames_eq.trans ?_)
  · rw [Module.render]
    cases module.defaultExport <;> rfl
  simp [Module.binds, List.flatMap_eq_nil_iff, List.map_eq_flatMap]

end StyleGraph.Emit
