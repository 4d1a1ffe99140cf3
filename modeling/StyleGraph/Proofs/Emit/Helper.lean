import StyleGraph.Proofs.Emit.Layout
import StyleGraph.Proofs.Text.Cut

/-!
# The helper in generated modules

The helper that finds the class map of a module is written before the statements when one of them
has a class map. Whether it is called is another question: a class map of no modules calls nothing,
and a default export calls the helper without being looked at.

The source of a module is searched for the first line of the helper. Names and source that are taken
as they are may hold it, too, and are searched by themselves (`inserted`); nothing else in a module
does, whatever its texts and specifiers are.

## What is proved

* `definitions_render`: how often the helper is defined in the source of an expression, of a
  statement and of a module.
* `Module.within_render`: the helper and its calls stand in the source of a module.
* `Module.defines_helper_iff`: the helper is defined once if a statement has a class map, and the
  modules for which that is just when it is called.
-/

set_option autoImplicit false

namespace StyleGraph.Emit

/-! ## Definitions of the helper -/

/-- The first line of the helper. -/
def helperHead : List Char := ("function " ++ modulesHelperName ++ "(payload) \x7b\n").toList

/-- How often a source begins the definition of the helper. -/
def definitionsIn (cs : List Char) : Nat := Text.occurrences helperHead cs

/-- How often a source begins the definition of the helper. -/
def definitions (source : String) : Nat := definitionsIn source.toList

/-- The characters of the first line, had from the lists that its literals stand for. -/
theorem helperHead_eq : helperHead =
    ['f', 'u', 'n', 'c', 't', 'i', 'o', 'n', ' ', '_', '_', 'k', 'n', 'i', 'g', 'h', 't', 'e', 'd',
      'R', 'e', 's', 'o', 'l', 'v', 'e', 'M', 'o', 'd', 'u', 'l', 'e', 's', '(', 'p', 'a', 'y', 'l',
      'o', 'a', 'd', ')', ' ', '\x7b', '\n'] := by
  unfold helperHead modulesHelperName
  simp only [String.toList_append]
  iterate 3 rw [String.toList_ofList]
  rfl

/-- The head of the helper ends its line, so a definition that is found ends where a line ends. -/
theorem getLast?_helperHead : helperHead.getLast? = some '\n' := by
  rw [helperHead_eq]
  rfl

/-- The text counted is not empty, so that counting it means something. -/
theorem helperHead_ne_nil : helperHead ≠ [] := by
  rw [helperHead_eq]
  exact List.cons_ne_nil _ _

/-- Nothing is defined where the helper is not named. -/
theorem definitionsIn_unnamed {cs : List Char} (unnamed : 'R' ∉ cs) : definitionsIn cs = 0 := by
  have needed : 'R' ∈ helperHead := by simp [helperHead_eq]
  exact Text.occurrences_eq_zero needed unnamed

/-- A definition goes over the end of a line. -/
theorem definitionsIn_line {cs : List Char} (line : '\n' ∉ cs) : definitionsIn cs = 0 :=
  Text.occurrences_eq_zero (List.mem_of_getLast? getLast?_helperHead) line

/-- A text without line breaks adds no definition to what stands before it: the head of the helper
would have to end in it. -/
theorem definitionsIn_append_line (cs : List Char) {tail : List Char} (line : '\n' ∉ tail) :
    definitionsIn (cs ++ tail) = definitionsIn cs := by
  have apart := Text.apart_of_getLast?_not_mem getLast?_helperHead line cs
  rw [definitionsIn, Text.occurrences_append apart, ← definitionsIn, ← definitionsIn,
    definitionsIn_line line, Nat.add_zero]

/-- Nothing is defined across a character that no definition has. -/
theorem definitionsIn_append_cons {stop : Char} (absent : stop ∉ helperHead)
    (before after : List Char) :
    definitionsIn (before ++ stop :: after) = definitionsIn before + definitionsIn after :=
  Text.occurrences_append_cons helperHead_ne_nil absent before after

/-- Nothing is defined across the end of a line. -/
theorem definitionsIn_append_of_ended {before : List Char} (ended : ∀ c ∈ before.getLast?, c = '\n')
    (after : List Char) :
    definitionsIn (before ++ after) = definitionsIn before + definitionsIn after := by
  refine Text.occurrences_append (Text.apart_of_getLast? (fun c last => ?_) after)
  rw [ended c last, helperHead_eq]
  decide

/-- The characters around names and source that no definition has. -/
theorem not_mem_helperHead {c : Char} (mark : c ∈ ['.', '[', ']', ',', ';', ':', '=', '*', '"']) :
    c ∉ helperHead := by
  have absent : ['.', '[', ']', ',', ';', ':', '=', '*', '"'].all (!helperHead.contains ·) := by
    rw [helperHead_eq]
    decide
  simpa using List.all_eq_true.mp absent c mark

/-- How the lines of a module begin, and what stands in front of names. -/
def leads : List String :=
  [" ", "import * as ", "const ", "export const ", "export default ", "typeof ",
    modulesHelperName ++ "(", " " ++ modulesHelperName ++ "(", "Object.assign(\x7b\x7d",
    "default !== \"undefined\" ? ", "default : "]

/-- The head of the helper begins like no statement that is written, so it cannot begin in what a
statement begins with. -/
theorem isLead_of_mem_leads : ∀ lead ∈ leads, Text.IsLead helperHead lead.toList := by
  rw [helperHead_eq]
  decide +kernel

/-- What a statement begins with defines nothing, and is left out of the count. -/
theorem definitionsIn_lead {lead : String} (mem : lead ∈ leads) (cs : List Char) :
    definitionsIn (lead.toList ++ cs) = definitionsIn cs :=
  (isLead_of_mem_leads lead mem).occurrences_append cs

/-! ## Expressions -/

mutual

/-- The texts that an expression takes as they are, each as often as it is written. -/
def Expr.inserted : Expr → List String
  | .ident name => [name]
  | .str _ => []
  | .member object _ => [object]
  | .defaultOrNamespace module => [module, module, module]
  | .modulesOf modules => modules
  | .join items => Expr.insertedAll items
  | .raw source => [source]

/-- The texts that several expressions take as they are. -/
def Expr.insertedAll : List Expr → List String
  | [] => []
  | item :: items => item.inserted ++ Expr.insertedAll items

end

/-- How often texts begin the definition of the helper, all together. -/
def definitionsOf : List String → Nat
  | [] => 0
  | text :: texts => definitions text + definitionsOf texts

/-- Counts of several texts are added up. -/
theorem definitionsOf_append (texts others : List String) :
    definitionsOf (texts ++ others) = definitionsOf texts + definitionsOf others := by
  induction texts with
  | nil => exact (Nat.zero_add _).symm
  | cons text texts ih => rw [List.cons_append, definitionsOf, definitionsOf, ih, Nat.add_assoc]

/-- Items that each define as much as their texts do so together. -/
theorem definitionsOf_flatMap {α : Type} {render : α → String} {texts : α → List String}
    (each : ∀ item, definitions (render item) = definitionsOf (texts item)) (items : List α) :
    definitionsOf (items.map render) = definitionsOf (items.flatMap texts) := by
  induction items with
  | nil => rfl
  | cons item items ih =>
    rw [List.map_cons, definitionsOf, List.flatMap_cons, definitionsOf_append, each, ih]

/-- What an argument of a call defines. -/
theorem definitionsIn_helperCall (module : String) :
    definitionsIn (helperCall module).toList = definitions module := by
  have written : (helperCall module).toList =
      (modulesHelperName ++ "(").toList ++ (module.toList ++ [')']) := by simp [helperCall]
  rw [written, definitionsIn_lead (by decide), definitionsIn_append_line _ (by decide), definitions]

/-- What the arguments of calls define. A call spells the name of the helper, but not the head of
its definition; only the names of the modules in it could. -/
theorem definitionsIn_helperCalls (modules : List String) :
    definitionsIn (String.join (modules.map fun m => ", " ++ helperCall m)).toList =
      definitionsOf modules := by
  induction modules with
  | nil => exact definitionsIn_unnamed (by decide)
  | cons module modules ih =>
    generalize calls : (String.join (modules.map fun m => ", " ++ helperCall m)).toList = rest at ih
    have marks : ∀ c ∈ rest.head?, c = ',' := by
      rw [← calls]
      cases modules <;> simp [eq_comm]
    have written : (String.join ((module :: modules).map fun m => ", " ++ helperCall m)).toList =
        [] ++ ',' :: ((" " ++ modulesHelperName ++ "(").toList ++
          ((module.toList ++ [')']) ++ rest)) := by
      simp [helperCall, ← calls]
    have apart : definitionsIn ((module.toList ++ [')']) ++ rest) =
        definitionsIn (module.toList ++ [')']) + definitionsIn rest := by
      refine Text.occurrences_append (Text.apart_of_head? (fun c head mem => ?_) _)
      rw [marks c head] at mem
      exact not_mem_helperHead (by decide) (List.mem_of_mem_tail mem)
    rw [written, definitionsIn_append_cons (not_mem_helperHead (by decide)),
      definitionsIn_lead (by decide), apart, definitionsIn_append_line _ (by decide), ih,
      definitionsOf, definitions]
    exact Nat.zero_add _

/-- What joined texts define. -/
theorem definitionsIn_joined (texts : List String) :
    definitionsIn (Text.joinWith ", ".toList (texts.map String.toList)) = definitionsOf texts := by
  induction texts with
  | nil => rfl
  | cons text texts ih =>
    cases texts with
    | nil => rfl
    | cons next texts =>
      have written : Text.joinWith ", ".toList ((text :: next :: texts).map String.toList) =
          text.toList ++ ',' ::
            (" ".toList ++ Text.joinWith ", ".toList ((next :: texts).map String.toList)) := by
        simp [Text.joinWith]
      rw [written, definitionsIn_append_cons (not_mem_helperHead (by decide)),
        definitionsIn_lead (by decide), ih, ← definitions, ← definitionsOf]

mutual

/-- **An expression defines nothing of its own**, but what is in the texts that it takes as they
are. -/
theorem Expr.definitions_render : ∀ expr : Expr,
    definitions expr.render = definitionsOf expr.inserted
  | .ident name => by simp [render, inserted, definitionsOf]
  | .str value => by
    rw [render, inserted, definitions, definitionsIn_line (newline_not_mem_quote value)]
    rfl
  | .member object property => by
    have behind : (Expr.member object property).inserted = [object] := by rw [inserted]
    rw [render, behind, definitionsOf]
    split
    next valid =>
      have line : '\n' ∉ property.toList := not_mem_of_isIdentifier valid (by decide)
      have written : (object ++ "." ++ property).toList =
          object.toList ++ '.' :: property.toList := by simp
      rw [definitions, written, definitionsIn_append_cons (not_mem_helperHead (by decide)),
        definitionsIn_line line]
      rfl
    next =>
      have line : '\n' ∉ (Text.quote property).toList ++ [']'] := by
        simp [newline_not_mem_quote]
      have written : (object ++ "[" ++ Text.quote property ++ "]").toList =
          object.toList ++ '[' :: ((Text.quote property).toList ++ [']']) := by simp
      rw [definitions, written, definitionsIn_append_cons (not_mem_helperHead (by decide)),
        definitionsIn_line line]
      rfl
  | .defaultOrNamespace module => by
    have written : (Expr.defaultOrNamespace module).render.toList =
        "typeof ".toList ++ (module.toList ++ '.' :: ("default !== \"undefined\" ? ".toList ++
          (module.toList ++ '.' :: ("default : ".toList ++ module.toList)))) := by
      have source : (Expr.defaultOrNamespace module).render = "typeof " ++ module ++
        ".default !== \"undefined\" ? " ++ module ++ ".default : " ++ module := rfl
      simp [source]
    rw [definitions, written, definitionsIn_lead (by decide),
      definitionsIn_append_cons (not_mem_helperHead (by decide)), definitionsIn_lead (by decide),
      definitionsIn_append_cons (not_mem_helperHead (by decide)), definitionsIn_lead (by decide)]
    simp only [inserted, definitionsOf, definitions]
    rfl
  | .modulesOf modules => by
    match modules with
    | [] =>
      simp only [render]
      rw [definitions, definitionsIn_unnamed (by decide), inserted, definitionsOf]
    | [module] =>
      rw [render, definitions, definitionsIn_helperCall, inserted, definitionsOf]
      rfl
    | first :: second :: rest =>
      have written : (Expr.modulesOf (first :: second :: rest)).render.toList =
          "Object.assign(\x7b\x7d".toList ++ ((String.join
            ((first :: second :: rest).map fun m => ", " ++ helperCall m)).toList ++ [')']) := by
        simp [render]
      rw [definitions, written, definitionsIn_lead (by decide),
        definitionsIn_append_line _ (by decide), definitionsIn_helperCalls, inserted]
  | .join items => by
    have written : (Expr.join items).render.toList =
        [] ++ '[' :: (Text.joinWith ", ".toList ((renderAll items).map String.toList) ++
          ']' :: ".join(\"\\n\")".toList) := by
      rw [render]
      simp only [String.toList_append, Text.toList_intercalate]
      simp
    rw [definitions, written, definitionsIn_append_cons (not_mem_helperHead (by decide)),
      definitionsIn_append_cons (not_mem_helperHead (by decide)), definitionsIn_joined,
      definitionsIn_line (by decide : '\n' ∉ ".join(\"\\n\")".toList), inserted,
      ← Expr.definitions_renderAll items]
    exact Nat.zero_add _
  | .raw source => by simp [render, inserted, definitionsOf]

/-- The items of an object or of a list, by the recursion of the printer. What is written between
them defines nothing. -/
theorem Expr.definitions_renderAll : ∀ items : List Expr,
    definitionsOf (Expr.renderAll items) = definitionsOf (Expr.insertedAll items)
  | [] => by rw [renderAll, insertedAll]
  | item :: items => by
    rw [renderAll, insertedAll, definitionsOf_append, definitionsOf,
      Expr.definitions_render item, Expr.definitions_renderAll items]

end

/-! ## Statements -/

/-- A text in quotes defines nothing, and stands between what it separates. -/
theorem definitionsIn_quoted (before : List Char) (text : String) (after : List Char) :
    definitionsIn (before ++ ((Text.quote text).toList ++ after)) =
      definitionsIn before + definitionsIn after := by
  have line := newline_not_mem_quote text
  rw [Text.quote, String.toList_ofList, Text.quoteChars] at line ⊢
  generalize text.toList.flatMap Text.escapeChar = inner at line ⊢
  have written : before ++ ('"' :: inner ++ ['"'] ++ after) =
      before ++ '"' :: (inner ++ '"' :: after) := by simp
  have inside : '\n' ∉ inner := fun mem => line (by simp [mem])
  rw [written, definitionsIn_append_cons (not_mem_helperHead (by decide)),
    definitionsIn_append_cons (not_mem_helperHead (by decide)), definitionsIn_line inside,
    Nat.zero_add]

/-- The texts that a statement takes as they are. Source ends its line. -/
def Stmt.inserted : Stmt → List String
  | .const name init => name :: init.inserted
  | .exportConst name init => name :: init.inserted
  | .raw source => [(Stmt.raw source).render]

/-- A constant defines what its name and its value do. -/
theorem definitions_constant {lead name init : String} (mem : lead ∈ leads) :
    definitions (lead ++ name ++ " = " ++ init ++ ";\n") = definitions name + definitions init := by
  have written : (lead ++ name ++ " = " ++ init ++ ";\n").toList = lead.toList ++
      ((name.toList ++ [' ']) ++ '=' :: (" ".toList ++ (init.toList ++ ';' :: ['\n']))) := by simp
  have ended : definitionsIn ['\n'] = 0 := definitionsIn_unnamed (by decide)
  rw [definitions, written, definitionsIn_lead mem,
    definitionsIn_append_cons (not_mem_helperHead (by decide)),
    definitionsIn_append_line _ (by decide), definitionsIn_lead (by decide),
    definitionsIn_append_cons (not_mem_helperHead (by decide)), ended]
  rfl

/-- **A statement defines nothing of its own.** -/
theorem Stmt.definitions_render : ∀ stmt : Stmt,
    definitions stmt.render = definitionsOf stmt.inserted
  | .const name init => by
    have source : (Stmt.const name init).render =
        "const " ++ name ++ " = " ++ init.render ++ ";\n" := rfl
    rw [source, definitions_constant (by decide), init.definitions_render, inserted,
      definitionsOf]
  | .exportConst name init => by
    have source : (Stmt.exportConst name init).render =
        "export const " ++ name ++ " = " ++ init.render ++ ";\n" := rfl
    rw [source, definitions_constant (by decide), init.definitions_render, inserted,
      definitionsOf]
  | .raw source => by simp [inserted, definitionsOf]

/-! ## Modules -/

/-- A source that ends its last line, if it has any. -/
def Ended (source : String) : Prop := ∀ c ∈ source.toList.getLast?, c = '\n'

namespace Ended

variable {source other : String}

/-- Texts that end their lines do so one behind the other. -/
theorem append (ended : Ended source) (endedOther : Ended other) : Ended (source ++ other) := by
  intro c last
  rw [String.toList_append, List.getLast?_append] at last
  rcases Option.or_eq_some_iff.mp last with last | ⟨-, last⟩
  · exact endedOther c last
  · exact ended c last

/-- The empty text has no last line that could be open. -/
theorem empty : Ended "" := fun _ last => nomatch last

/-- A text ends its line if the last part of it does. -/
theorem append_line (source : String) {line : String} (ends : line.toList.getLast? = some '\n') :
    Ended (source ++ line) := by
  intro c last
  rw [String.toList_append, List.getLast?_append, ends, Option.some_or] at last
  exact (Option.some.inj last).symm

/-- Behind a text that ends its line nothing is defined that begins before it, so counts are added
up. This is why the modules are looked at line by line. -/
theorem definitions_append (ended : Ended source) (other : String) :
    definitions (source ++ other) = definitions source + definitions other := by
  rw [definitions, String.toList_append, definitionsIn_append_of_ended ended]
  rfl

/-- The same for any number of texts, by induction on the list. -/
theorem join {α : Type} {render : α → String} (each : ∀ item, Ended (render item))
    (items : List α) : Ended (String.join (items.map render)) ∧
      definitions (String.join (items.map render)) = definitionsOf (items.map render) := by
  induction items with
  | nil => exact ⟨empty, rfl⟩
  | cons item items ih =>
    rw [List.map_cons, String.join_cons, (each item).definitions_append, ih.2, ← definitionsOf]
    exact ⟨(each item).append ih.1, rfl⟩

end Ended

/-- Every statement ends its line, whatever is written into it. Raw text gets a line break only
where it has none. -/
theorem Stmt.ended_render : ∀ stmt : Stmt, Ended stmt.render
  | .const name init => Ended.append_line ("const " ++ name ++ " = " ++ init.render) (by decide)
  | .exportConst name init =>
    Ended.append_line ("export const " ++ name ++ " = " ++ init.render) (by decide)
  | .raw source => by
    have written : (Stmt.raw source).render =
        if Text.endsWith ['\n'] source.toList then source else source ++ "\n" := rfl
    rw [written]
    split
    next ended =>
      obtain ⟨stem, stripped⟩ := Option.isSome_iff_exists.mp ended
      have whole : source = String.ofList stem ++ "\n" := by
        rw [← String.toList_inj, Text.stripEnd?_eq_some_iff.mp stripped]
        simp
      rw [whole]
      exact .append_line _ (by decide)
    next => exact .append_line _ (by decide)

/-- The helper itself is defined once by its head. -/
theorem definitionsIn_helperHead : definitionsIn helperHead = 1 := by
  rw [definitionsIn, helperHead_eq]
  decide +kernel

/-- **The helper is one definition**, whatever the name in it. The text of the helper is known up to
the name, and the name stands behind the head that is counted. -/
theorem definitions_modulesHelper (name : String) :
    Ended (modulesHelper name) ∧ definitions (modulesHelper name) = 1 := by
  -- The name stands somewhere inside, in quotes, and the rest has an R in its first line only.
  obtain ⟨lead, tail, written, ⟨rest, head⟩, restPlain, tailPlain, ends⟩ : ∃ lead tail : String,
      modulesHelper name = lead ++ (Text.quote name ++ tail) ∧ helperHead <+: lead.toList ∧
        'R' ∉ lead.toList.drop helperHead.length ∧ 'R' ∉ tail.toList ∧
          tail.toList.getLast? = some '\n' := by
    refine ⟨?lead, ?tail, ?written, ?_⟩
    case written =>
      unfold modulesHelper
      iterate 5 rw [String.append_assoc]
    simp only [String.toList_append]
    -- The characters of a literal are had from the list that it stands for, not by decoding it.
    repeat rw [String.toList_ofList]
    decide +kernel
  rw [← head, List.drop_left] at restPlain
  rw [written]
  refine ⟨?_, ?_⟩
  · rw [← String.append_assoc]
    exact .append_line _ ends
  · rw [definitions, String.toList_append, String.toList_append, definitionsIn_quoted, ← head,
      definitionsIn_append_of_ended (by simp [getLast?_helperHead]), definitionsIn_helperHead,
      definitionsIn_unnamed restPlain, definitionsIn_unnamed tailPlain]

/-- The texts that a module takes as they are. -/
def Module.inserted (module : Module) : List String :=
  module.imports.map NamespaceImport.name ++ module.statements.flatMap Stmt.inserted ++
    module.defaultExport.toList.flatMap Expr.inserted

/-- An empty line ends a line and defines nothing. -/
theorem definitions_line : Ended "\n" ∧ definitions "\n" = 0 := by
  refine ⟨fun c last => ?_, definitionsIn_unnamed (by decide)⟩
  simpa [eq_comm] using last

/-- An import defines what its name does. The specifier is quoted, and no quoted text holds a line
break. -/
theorem definitions_import (item : NamespaceImport) :
    definitions ("import * as " ++ item.name ++ " from " ++ Text.quote item.specifier ++ ";\n") =
      definitionsOf [item.name] := by
  have written : ("import * as " ++ item.name ++ " from " ++ Text.quote item.specifier ++
      ";\n").toList = "import * as ".toList ++ ((item.name.toList ++ " from ".toList) ++
        ((Text.quote item.specifier).toList ++ ";\n".toList)) := by simp
  have ended : definitionsIn ";\n".toList = 0 := definitionsIn_unnamed (by decide)
  rw [definitions, written, definitionsIn_lead (by decide), definitionsIn_quoted,
    definitionsIn_append_line _ (by decide), ended]
  rfl

/-- A re-export names nothing. -/
theorem definitions_reexport (specifier : String) :
    definitions ("export * from " ++ Text.quote specifier ++ ";\n") = definitionsOf [] := by
  have written : ("export * from " ++ Text.quote specifier ++ ";\n").toList =
      "export * from ".toList ++ ((Text.quote specifier).toList ++ ";\n".toList) := by simp
  rw [definitions, written, definitionsIn_quoted, definitionsIn_unnamed (by decide),
    definitionsIn_unnamed (by decide), definitionsOf]

/-- A default export defines what its expression does. -/
theorem definitions_default (expr : Expr) :
    definitions ("export default " ++ expr.render ++ ";\n") = definitionsOf expr.inserted := by
  have written : ("export default " ++ expr.render ++ ";\n").toList =
      "export default ".toList ++ (expr.render.toList ++ ';' :: ['\n']) := by simp
  have ended : definitionsIn ['\n'] = 0 := definitionsIn_unnamed (by decide)
  rw [definitions, written, definitionsIn_lead (by decide),
    definitionsIn_append_cons (not_mem_helperHead (by decide)), ended, Nat.add_zero,
    ← definitions, expr.definitions_render]

/-- The parts of the source of a module. -/
theorem Module.render_eq (module : Module) (cssExport : String) :
    module.render cssExport =
      String.join (module.imports.map fun item =>
        "import * as " ++ item.name ++ " from " ++ Text.quote item.specifier ++ ";\n") ++
      (if module.imports.isEmpty then "" else "\n") ++
      (if module.needsHelper then modulesHelper cssExport ++ "\n" else "") ++
      String.join (module.statements.map Stmt.render) ++
      String.join (module.reexports.map fun specifier =>
        "export * from " ++ Text.quote specifier ++ ";\n") ++
      module.defaultExport.elim "" fun expr => "export default " ++ expr.render ++ ";\n" := by
  rw [render]
  cases module.defaultExport <;> rfl

/-- **The helper is defined where it is needed**, and nothing else is defined but in the texts that
a module takes as they are. -/
theorem Module.definitions_render (module : Module) (cssExport : String) :
    definitions (module.render cssExport) =
      (if module.needsHelper then 1 else 0) + definitionsOf module.inserted := by
  obtain ⟨endedImports, imports⟩ := Ended.join (fun item : NamespaceImport =>
    .append_line ("import * as " ++ item.name ++ " from " ++ Text.quote item.specifier)
      (show ";\n".toList.getLast? = some '\n' by decide)) module.imports
  rw [definitionsOf_flatMap definitions_import, ← List.map_eq_flatMap] at imports
  have gap : Ended (if module.imports.isEmpty then "" else "\n") ∧
      definitions (if module.imports.isEmpty then "" else "\n") = 0 := by
    split
    · exact ⟨.empty, rfl⟩
    · exact definitions_line
  have helper : Ended (if module.needsHelper then modulesHelper cssExport ++ "\n" else "") ∧
      definitions (if module.needsHelper then modulesHelper cssExport ++ "\n" else "") =
        if module.needsHelper then 1 else 0 := by
    obtain ⟨ended, one⟩ := definitions_modulesHelper cssExport
    split
    · refine ⟨ended.append definitions_line.1, ?_⟩
      rw [ended.definitions_append, one, definitions_line.2]
    · exact ⟨.empty, rfl⟩
  obtain ⟨endedStatements, statements⟩ := Ended.join Stmt.ended_render module.statements
  rw [definitionsOf_flatMap Stmt.definitions_render] at statements
  obtain ⟨endedReexports, reexports⟩ := Ended.join
    (fun specifier => .append_line ("export * from " ++ Text.quote specifier)
      (show ";\n".toList.getLast? = some '\n' by decide)) module.reexports
  rw [definitionsOf_flatMap definitions_reexport, List.flatMap_eq_nil_iff.mpr fun _ _ => rfl,
    definitionsOf] at reexports
  have default : definitions (module.defaultExport.elim "" fun expr =>
      "export default " ++ expr.render ++ ";\n") =
        definitionsOf (module.defaultExport.toList.flatMap Expr.inserted) := by
    cases module.defaultExport with
    | none => rfl
    | some expr => simp [definitions_default]
  have toGap := endedImports.append gap.1
  have toHelper := toGap.append helper.1
  have toStatements := toHelper.append endedStatements
  have toReexports := toStatements.append endedReexports
  rw [render_eq, toReexports.definitions_append, toStatements.definitions_append,
    toHelper.definitions_append, toGap.definitions_append, endedImports.definitions_append,
    imports, gap.2, helper.2, statements, reexports, default, inserted, definitionsOf_append,
    definitionsOf_append]
  omega

/-! ## Calls of the helper -/

mutual

/-- The class maps in an expression, each with the modules that it merges. -/
def Expr.classMaps : Expr → List (List String)
  | .ident _ => []
  | .str _ => []
  | .member _ _ => []
  | .defaultOrNamespace _ => []
  | .modulesOf modules => [modules]
  | .join items => Expr.classMapsAll items
  | .raw _ => []

/-- The class maps in several expressions. -/
def Expr.classMapsAll : List Expr → List (List String)
  | [] => []
  | item :: items => item.classMaps ++ Expr.classMapsAll items

end

/-- The modules that an expression calls the helper with. -/
def Expr.calls (expr : Expr) : List String := expr.classMaps.flatten

/-- The class maps in a statement. -/
def Stmt.classMaps : Stmt → List (List String)
  | .const _ init => init.classMaps
  | .exportConst _ init => init.classMaps
  | .raw _ => []

/-- The class maps in the statements of a module. -/
def Module.classMaps (module : Module) : List (List String) :=
  module.statements.flatMap Stmt.classMaps

/-- The modules that the default export calls the helper with. -/
def Module.defaultCalls (module : Module) : List String :=
  module.defaultExport.elim [] Expr.calls

/-- The modules that a module calls the helper with. -/
def Module.calls (module : Module) : List String :=
  module.classMaps.flatten ++ module.defaultCalls

mutual

/-- An expression uses the helper just if it merges class maps. The recursion is that of the
expression. -/
theorem Expr.usesHelper_iff : ∀ expr : Expr, expr.usesHelper = true ↔ expr.classMaps ≠ []
  | .ident _ => by simp [usesHelper, classMaps]
  | .str _ => by simp [usesHelper, classMaps]
  | .member _ _ => by simp [usesHelper, classMaps]
  | .defaultOrNamespace _ => by simp [usesHelper, classMaps]
  | .modulesOf _ => by simp [usesHelper, classMaps]
  | .join items => by
    rw [usesHelper, classMaps]
    exact Expr.anyUsesHelper_iff items
  | .raw _ => by simp [usesHelper, classMaps]

/-- The same for items of an object or of a list. -/
theorem Expr.anyUsesHelper_iff : ∀ items : List Expr,
    Expr.anyUsesHelper items = true ↔ Expr.classMapsAll items ≠ []
  | [] => by simp [anyUsesHelper, classMapsAll]
  | item :: items => by
    rw [anyUsesHelper, classMapsAll, Bool.or_eq_true, Expr.usesHelper_iff item,
      Expr.anyUsesHelper_iff items, ne_eq, ne_eq, ne_eq, List.append_eq_nil_iff, not_and_or]

end

/-- The helper is needed just when a statement has a class map, be it of no modules. -/
theorem Module.needsHelper_iff {module : Module} :
    module.needsHelper = true ↔ module.classMaps ≠ [] := by
  have each : ∀ stmt : Stmt, stmt.usesHelper = true ↔ stmt.classMaps ≠ []
    | .const _ init => init.usesHelper_iff
    | .exportConst _ init => init.usesHelper_iff
    | .raw _ => by simp [Stmt.usesHelper, Stmt.classMaps]
  simp [needsHelper, classMaps, each]

/-- A text that stands somewhere in a source. -/
def Within (part source : String) : Prop := part.toList <:+: source.toList

namespace Within

variable {part source other : String}

/-- What is within a part is within the whole. -/
theorem trans (inner : Within part source) (outer : Within source other) : Within part other :=
  List.IsInfix.trans inner outer

/-- Every text stands in itself. -/
theorem refl (source : String) : Within source source := List.infix_rfl

/-- Text behind the whole changes nothing. -/
theorem append_right (within : Within part source) (other : String) :
    Within part (source ++ other) := by
  rw [Within, String.toList_append]
  exact List.IsInfix.trans within (List.prefix_append _ _).isInfix

/-- Text before the whole changes nothing. -/
theorem append_left (within : Within part source) (other : String) :
    Within part (other ++ source) := by
  rw [Within, String.toList_append]
  exact List.IsInfix.trans within (List.suffix_append _ _).isInfix

/-- A text is within any text that it is joined into. -/
theorem join {sources : List String} (mem : source ∈ sources) :
    Within source (String.join sources) := by
  induction mem with
  | head sources =>
    rw [String.join_cons]
    exact (refl source).append_right _
  | tail first _ ih =>
    rw [String.join_cons]
    exact ih.append_left first

/-- The same where something is written between the texts. -/
theorem intercalate {sources : List String} (mem : source ∈ sources) (lead : String) :
    Within source (String.intercalate lead sources) := by
  rw [Within, Text.toList_intercalate]
  exact Text.infix_joinWith (List.mem_map_of_mem mem)

end Within

mutual

/-- **An expression is written with its calls.** The induction is on the expression, and each
constructor writes its parts between texts of its own. -/
theorem Expr.within_render {called : String} : ∀ expr : Expr, called ∈ expr.calls →
    Within (helperCall called) expr.render
  | .modulesOf modules, mem => by
    have mem : called ∈ modules := by simpa [calls, classMaps] using mem
    match modules, mem with
    | [module], mem =>
      rw [render, List.mem_singleton.mp mem]
      exact .refl _
    | first :: second :: rest, mem =>
      have source : (Expr.modulesOf (first :: second :: rest)).render =
          "Object.assign(\x7b\x7d" ++ String.join
            ((first :: second :: rest).map fun m => ", " ++ helperCall m) ++ ")" := by
        simp only [render]
      rw [source]
      refine .append_right (.append_left (.trans ?_ (.join (List.mem_map_of_mem mem))) _) _
      exact .append_left (.refl _) _
  | .join items, mem => by
    rw [calls, classMaps] at mem
    obtain ⟨source, written, within⟩ := Expr.exists_renderAll items mem
    rw [render]
    exact .append_right (.append_left (within.trans (.intercalate written _)) _) _
  | .ident _, mem => by simp [calls, classMaps] at mem
  | .str _, mem => by simp [calls, classMaps] at mem
  | .member _ _, mem => by simp [calls, classMaps] at mem
  | .defaultOrNamespace _, mem => by simp [calls, classMaps] at mem
  | .raw _, mem => by simp [calls, classMaps] at mem

/-- Where one of several expressions calls the helper, the text of that expression holds the call.
-/
theorem Expr.exists_renderAll {called : String} : ∀ items : List Expr,
    called ∈ (Expr.classMapsAll items).flatten →
      ∃ source ∈ Expr.renderAll items, Within (helperCall called) source
  | [], mem => by simp [classMapsAll] at mem
  | item :: items, mem => by
    rw [classMapsAll, List.flatten_append, List.mem_append] at mem
    rw [renderAll]
    rcases mem with mem | mem
    · exact ⟨_, List.mem_cons_self, Expr.within_render item mem⟩
    · obtain ⟨source, written, within⟩ := Expr.exists_renderAll items mem
      exact ⟨source, List.mem_cons_of_mem _ written, within⟩

end

/-- A statement that calls the helper has the call in its text, for each kind of statement. -/
theorem Stmt.within_render {called : String} : ∀ stmt : Stmt, called ∈ stmt.classMaps.flatten →
    Within (helperCall called) stmt.render
  | .const name init, mem =>
    ((init.within_render mem).append_left ("const " ++ name ++ " = ")).append_right ";\n"
  | .exportConst name init, mem =>
    ((init.within_render mem).append_left ("export const " ++ name ++ " = ")).append_right ";\n"
  | .raw _, mem => by simp [classMaps] at mem

/-- The source of a module has the helper where it is needed, and every call. A call is part of an
expression, which is part of a statement or of the default export, so it is found by going down to
it. -/
theorem Module.within_render (module : Module) (cssExport : String) :
    (module.classMaps ≠ [] → Within (modulesHelper cssExport) (module.render cssExport)) ∧
      ∀ called ∈ module.calls, Within (helperCall called) (module.render cssExport) := by
  rw [render_eq]
  refine ⟨fun some => ?_, fun called mem => ?_⟩
  · rw [if_pos (needsHelper_iff.mpr some)]
    refine .append_right (.append_right (.append_right (.append_left ?_ _) _) _) _
    exact .append_right (.refl _) _
  · rcases List.mem_append.mp mem with mem | mem
    · obtain ⟨classMap, found, inside⟩ := List.mem_flatten.mp mem
      obtain ⟨stmt, stated, of⟩ := List.mem_flatMap.mp found
      have within := stmt.within_render (List.mem_flatten.mpr ⟨classMap, of, inside⟩)
      refine .append_right (.append_right (.append_left (within.trans ?_) _) _) _
      exact .join (List.mem_map_of_mem stated)
    · rw [defaultCalls] at mem
      cases found : module.defaultExport with
      | none => simp [found] at mem
      | some expr =>
        rw [found] at mem
        exact .append_left (.append_right (.append_left (expr.within_render mem) _) _) _

/-- **The helper is defined for the class maps of statements.** A module has it written once if one
of its statements has a class map, and else not at all, next to what is in the texts that it takes
as they are. So it is defined just when it is called, but for modules whose default export alone has
class maps that merge something, and for modules with class maps in statements and no call at
all. -/
theorem Module.defines_helper_iff (module : Module) (cssExport : String) :
    (definitions (module.render cssExport) =
      (if module.classMaps = [] then 0 else 1) + definitionsOf module.inserted) ∧
    (module.classMaps ≠ [] → Within (modulesHelper cssExport) (module.render cssExport)) ∧
    (∀ called ∈ module.calls, Within (helperCall called) (module.render cssExport)) ∧
    (definitions (module.render cssExport) =
        (if module.calls = [] then 0 else 1) + definitionsOf module.inserted ↔
      (module.classMaps = [] → module.defaultCalls = []) ∧
        (module.classMaps ≠ [] → module.calls ≠ [])) := by
  have defined : definitions (module.render cssExport) =
      (if module.classMaps = [] then 0 else 1) + definitionsOf module.inserted := by
    rw [definitions_render]
    congr 1
    -- without class maps no helper is written, and a default export may still call it
    by_cases none : module.classMaps = []
    · rw [if_pos none, if_neg fun needed => needsHelper_iff.mp needed none]
    · rw [if_neg none, if_pos (needsHelper_iff.mpr none)]
  obtain ⟨helper, called⟩ := module.within_render cssExport
  refine ⟨defined, helper, called, ?_⟩
  rw [defined, Nat.add_right_cancel_iff]
  by_cases none : module.classMaps = []
  · have only : module.calls = module.defaultCalls := by rw [calls, none]; rfl
    by_cases silent : module.defaultCalls = [] <;> simp [none, only, silent]
  · by_cases silent : module.calls = [] <;> simp [none, silent]

/-- A default export calls the helper without having it defined, and a class map of no modules has
it defined without calling it. -/
theorem Module.defines_helper_default :
    let calling : Module := { defaultExport := some (.modulesOf ["__a"]) }
    let silent : Module := { statements := [.exportConst "x" (.modulesOf [])] }
    (calling.calls = ["__a"] ∧ calling.inserted = ["__a"] ∧
      calling.render "knightedCss" = "export default __knightedResolveModules(__a);\n" ∧
      definitions (calling.render "knightedCss") = 0) ∧
    silent.calls = [] ∧ silent.inserted = ["x"] ∧
      definitions (silent.render "knightedCss") = 1 := by
  have calling : definitions (Module.render { defaultExport := some (.modulesOf ["__a"]) }
      "knightedCss") = 0 := by
    rw [Module.definitions_render]
    decide +kernel
  have silent : definitions (Module.render { statements := [.exportConst "x" (.modulesOf [])] }
      "knightedCss") = 1 := by
    rw [Module.definitions_render]
    decide +kernel
  exact ⟨⟨by decide +kernel, by decide +kernel, by decide +kernel, calling⟩, by decide +kernel,
    by decide +kernel, silent⟩

end StyleGraph.Emit
