import StyleGraph.Emit.Bridge
import StyleGraph.Emit.Combined

/-!
# What generated modules read and export

A generated module reads exports of the modules that it imports, each by its name, and exports
constants for others to read. Source that is taken as it is exports what it begins with.

The helper that looks for a class map takes what it finds; it reads nothing by name that has to be
there.
-/

set_option autoImplicit false

namespace StyleGraph.Emit

/-! ## Names -/

/-- A name that can be exported has characters of names only. So no name can end a line or close a
quote of the text around it. -/
theorem not_mem_of_isIdentifier {name : String} (valid : isIdentifier name = true) {c : Char}
    (special : isNameChar c = false) : c ∉ name.toList := by
  unfold isIdentifier at valid
  split at valid
  · cases valid
  next first rest chars =>
    simp only [Bool.and_eq_true, List.all_eq_true] at valid
    obtain ⟨⟨begins, continues⟩, _⟩ := valid
    have begun : isNameChar first = true := by
      simp only [isNameStart, isNameChar, Char.isAlphanum, Bool.or_eq_true] at begins ⊢
      rcases begins with (letter | other) | other
      · exact .inl (.inl (.inl letter))
      · exact .inl (.inr other)
      · exact .inr other
    intro mem
    rw [chars] at mem
    have passed : isNameChar c = true := by
      rcases List.mem_cons.mp mem with rfl | mem
      · exact begun
      · exact continues c mem
    rw [special] at passed
    cases passed

/-- An identifier has at least its first character. -/
theorem toList_ne_nil_of_isIdentifier {name : String} (valid : isIdentifier name = true) :
    name.toList ≠ [] := by
  intro empty
  unfold isIdentifier at valid
  rw [empty] at valid
  cases valid

/-! ## What is read -/

mutual

/-- The exports of a module that an expression reads. -/
def Expr.reads (module : String) : Expr → List String
  | .member object property => if object = module then [property] else []
  | .defaultOrNamespace object => if object = module then ["default"] else []
  | .join items => Expr.readsAll module items
  | _ => []

/-- The exports of a module that several expressions read. -/
def Expr.readsAll (module : String) : List Expr → List String
  | [] => []
  | item :: items => item.reads module ++ Expr.readsAll module items

end

/-- The exports of a module that a statement reads. -/
def Stmt.reads (module : String) : Stmt → List String
  | .const _ init => init.reads module
  | .exportConst _ init => init.reads module
  | .raw _ => []

/-- The exports that a module reads from another, which it imports under a name. -/
def Module.reads (module : Module) (name : String) : List String :=
  module.statements.flatMap (Stmt.reads name) ++
    module.defaultExport.toList.flatMap (Expr.reads name)

/-- **A combined module reads the style text, and the stable selectors if it has them.** -/
theorem CombinedPlan.reads_toModule (plan : CombinedPlan) :
    plan.toModule.reads cssAlias =
      plan.exportName :: if plan.includeStable then [stableExport] else [] := by
  have apart : sourceAlias ≠ cssAlias := by decide
  obtain ⟨source, request, name, modules, stable, default⟩ := plan
  cases modules <;> cases stable <;> cases default <;>
    simp only [toModule, Module.reads, Stmt.reads, Expr.reads, apart, if_true, if_false,
      Bool.false_eq_true, List.flatMap_cons, List.flatMap_nil, List.append_nil, List.nil_append,
      List.cons_append, Option.toList_some, Option.toList_none]

/-- The reads of a list of expressions are those of its items. -/
theorem Expr.mem_readsAll {module read : String} {items : List Expr} :
    read ∈ Expr.readsAll module items ↔ ∃ item ∈ items, read ∈ item.reads module := by
  induction items with
  | nil => simp [Expr.readsAll]
  | cons item items ih => simp [Expr.readsAll, ih]

/-- Each style that a bridge module imports is asked for by its own request. -/
theorem exists_style_of_mem_imports {source name : String} {styles : List String} {forwards : Bool}
    {item : NamespaceImport} (mem : item ∈ (bridgeModule source name styles forwards).imports) :
    item.name ∈ (List.range styles.length).map (fun i => styleAlias ++ toString i) ∧
      ∃ style ∈ styles,
        item.specifier = Request.cssRequest style (if forwards then some name else none) := by
  obtain ⟨⟨module, style⟩, listed, rfl⟩ := List.mem_map.mp mem
  obtain ⟨moduleMem, styleMem⟩ := List.of_mem_zip listed
  exact ⟨moduleMem, style, styleMem, rfl⟩

/-- **A bridge module reads one export of every style that it imports**: the one that has its own
export name. -/
theorem mem_reads_bridgeModule {source name : String} {styles : List String} {forwards : Bool}
    {item : NamespaceImport} (mem : item ∈ (bridgeModule source name styles forwards).imports)
    (read : String) :
    read ∈ (bridgeModule source name styles forwards).reads item.name ↔ read = name := by
  obtain ⟨listed, _⟩ := exists_style_of_mem_imports mem
  generalize aliases : (List.range styles.length).map (fun i => styleAlias ++ toString i) = names
    at listed
  have some : names.isEmpty = false := by
    simpa using List.ne_nil_of_mem listed
  have written : (bridgeModule source name styles forwards).statements =
      [.exportConst name (.join (names.map fun module => .member module name)),
        .exportConst modulesExport (.modulesOf names)] := by
    simp only [bridgeModule, aliases, some, Bool.false_eq_true, if_false]
  have default : (bridgeModule source name styles forwards).defaultExport = none := rfl
  simp only [Module.reads, written, default, Stmt.reads, Expr.reads, List.flatMap_cons,
    List.flatMap_nil, List.append_nil, Option.toList_none, Expr.mem_readsAll, List.mem_map]
  constructor
  · rintro ⟨_, ⟨module, _, rfl⟩, found⟩
    rw [Expr.reads] at found
    split at found
    · exact List.mem_singleton.mp found
    · exact absurd found List.not_mem_nil
  · rintro rfl
    exact ⟨_, ⟨item.name, listed, rfl⟩, by simp [Expr.reads]⟩

/-! ## What is exported -/

/-- A statement exports a constant. -/
def Stmt.Exports (stmt : Stmt) (name : String) : Prop :=
  ("export const " ++ name ++ " = ").toList <+: stmt.render.toList

/-- A module exports a constant. -/
def Module.Exports (module : Module) (name : String) : Prop :=
  ∃ stmt ∈ module.statements, stmt.Exports name

/-- An exported constant exports its name. -/
theorem Stmt.exports_exportConst (name : String) (init : Expr) :
    (Stmt.exportConst name init).Exports name := by
  have written : (Stmt.exportConst name init).render =
      "export const " ++ name ++ " = " ++ init.render ++ ";\n" := rfl
  refine ⟨(init.render ++ ";\n").toList, ?_⟩
  simp only [written, String.toList_append, List.append_assoc]

/-- A line copied as it is exports what its text begins with. -/
theorem Stmt.exports_raw {source name : String}
    (begins : ("export const " ++ name ++ " = ").toList <+: source.toList) :
    (Stmt.raw source).Exports name := by
  have written : (Stmt.raw source).render =
      if Text.endsWith ['\n'] source.toList then source else source ++ "\n" := rfl
  rw [Exports, written]
  split
  · exact begins
  · have joined : (source ++ "\n").toList = source.toList ++ "\n".toList := String.toList_append
    exact joined ▸ begins.trans (List.prefix_append _ _)

end StyleGraph.Emit
