import StyleGraph.Proofs.Script.Imports

/-!
# Default exports of scripts

The search for a default export goes over all imports and exports of a script, those for types alone
among them, of which nothing is left when the script runs. A default that is exported for types
alone counts for it (`defaultExport_typed`), and one import for types alone makes a script a module.
`defaultExport_eq_runtime_iff` tells for which scripts the answer is that of the statements that are
left.
-/

set_option autoImplicit false

namespace StyleGraph.Script

open Emit (DefaultSignal)

/-! ## What statements tell -/

/-- A statement exports something as the default. -/
def Statement.ExportsDefault : Statement → Prop
  | .exportsDefault _ => True
  | .exports _ _ names _ => ∃ name ∈ names, name.exported = "default"
  | .exportsAll _ name _ => name = some "default"
  | _ => False

/-- The test on a statement is the notion of the statement. -/
theorem Statement.exportsDefaultName_iff {statement : Statement} :
    statement.exportsDefaultName = true ↔ statement.ExportsDefault := by
  cases statement with
  | exports typesOnly declarators names source => simp [exportsDefaultName, ExportsDefault]
  | exportsAll typesOnly name source => cases name <;> simp [exportsDefaultName, ExportsDefault]
  | _ => simp [exportsDefaultName, ExportsDefault]

/-- A default export is an export. -/
theorem Statement.isLinkage_of_exportsDefault {statement : Statement}
    (exports : statement.ExportsDefault) : statement.isLinkage = true := by
  cases statement <;> first | rfl | cases exports

/-- Only imports and exports are for types alone. -/
theorem Statement.isLinkage_of_forTypes {statement : Statement}
    (typed : statement.forTypes = true) : statement.isLinkage = true := by
  cases statement <;> first | rfl | cases typed

/-- What is known of the default export of a module with given statements. -/
structure Signals (statements : List Statement) (signal : DefaultSignal) : Prop where
  present : signal = .present ↔ ∃ statement ∈ statements, statement.ExportsDefault
  absent : signal = .absent ↔ (∀ statement ∈ statements, ¬ statement.ExportsDefault) ∧
    ∃ statement ∈ statements, statement.isLinkage = true
  unknown : signal = .unknown ↔ ∀ statement ∈ statements, statement.isLinkage = false

/-- The answer of the search for a default export, given the statements. -/
def defaultSignal (statements : List Statement) : DefaultSignal :=
  if statements.any (·.exportsDefaultName) then .present
  else if statements.any (·.isLinkage) then .absent
  else .unknown

/-- The signal is read off the statements of the script. -/
theorem defaultExport_eq {source path : String} {statements : List Statement}
    (script : read? (moduleFlavor path) source = some statements) :
    defaultExport source path = defaultSignal statements := by
  rw [defaultExport, script]
  rfl

/-- The signal is the one the relation allows. The tests are made in the order of the relation: a
default export first, then exports of unknown names, which could be one. -/
theorem signals_defaultSignal (statements : List Statement) :
    Signals statements (defaultSignal statements) := by
  have exports : statements.any (·.exportsDefaultName) = true ↔
      ∃ statement ∈ statements, statement.ExportsDefault := by
    simp only [List.any_eq_true, Statement.exportsDefaultName_iff]
  rw [defaultSignal]
  split
  next found =>
    obtain ⟨statement, mem, default⟩ := exports.mp found
    refine ⟨iff_of_true rfl ⟨statement, mem, default⟩,
      iff_of_false nofun fun absent => absent.1 statement mem default,
      iff_of_false nofun fun unlinked => ?_⟩
    exact Bool.false_ne_true ((unlinked statement mem).symm.trans
      (Statement.isLinkage_of_exportsDefault default))
  next none =>
    rw [exports] at none
    have undefaulted : ∀ statement ∈ statements, ¬ statement.ExportsDefault :=
      fun statement mem default => none ⟨statement, mem, default⟩
    split
    next linked =>
      obtain ⟨statement, mem, link⟩ := List.any_eq_true.mp linked
      refine ⟨iff_of_false nofun none, iff_of_true rfl ⟨undefaulted, statement, mem, link⟩,
        iff_of_false nofun fun unlinked => ?_⟩
      exact Bool.false_ne_true ((unlinked statement mem).symm.trans link)
    next unlinked =>
      rw [List.any_eq_true] at unlinked
      refine ⟨iff_of_false nofun none, iff_of_false nofun fun absent => unlinked absent.2,
        iff_of_true rfl fun statement mem => ?_⟩
      exact eq_false_of_ne_true fun link => unlinked ⟨statement, mem, link⟩

/-! ## What is left when a script runs -/

/-- The statements without those for types alone. -/
def runtime (statements : List Statement) : List Statement := statements.filter (!·.forTypes)

variable {statements : List Statement}

/-- Run time keeps the statements that are not for types only. -/
theorem mem_runtime {statement : Statement} :
    statement ∈ runtime statements ↔ statement ∈ statements ∧ statement.forTypes = false := by
  simp [runtime]

/-- It keeps them all exactly if none is for types only. -/
theorem runtime_eq_self_iff :
    runtime statements = statements ↔ ∀ statement ∈ statements, statement.forTypes = false := by
  simp [runtime, List.filter_eq_self]

/-- **When the statements for types make no difference**: when one of the others exports a default,
or when none of them does and one of the others makes the script a module, or there are none. -/
theorem defaultSignal_runtime_iff : defaultSignal statements = defaultSignal (runtime statements) ↔
    (∃ statement ∈ runtime statements, statement.ExportsDefault) ∨
      (∀ statement ∈ statements, statement.forTypes = true → ¬ statement.ExportsDefault) ∧
        ((∃ statement ∈ runtime statements, statement.isLinkage = true) ∨
          ∀ statement ∈ statements, statement.forTypes = false) := by
  have whole := signals_defaultSignal statements
  have left := signals_defaultSignal (runtime statements)
  by_cases kept : ∃ statement ∈ runtime statements, statement.ExportsDefault
  · obtain ⟨statement, mem, default⟩ := kept
    refine iff_of_true ?_ (.inl ⟨statement, mem, default⟩)
    rw [left.present.mpr ⟨statement, mem, default⟩,
      whole.present.mpr ⟨statement, (mem_runtime.mp mem).1, default⟩]
  rw [or_iff_right kept]
  have gone : ∀ statement ∈ runtime statements, ¬ statement.ExportsDefault :=
    fun statement mem default => kept ⟨statement, mem, default⟩
  by_cases typed : ∀ statement ∈ statements, statement.forTypes = true → ¬ statement.ExportsDefault
  · rw [and_iff_right typed]
    have undefaulted : ∀ statement ∈ statements, ¬ statement.ExportsDefault := by
      intro statement mem
      cases forTypes : statement.forTypes with
      | true => exact typed statement mem forTypes
      | false => exact gone statement (mem_runtime.mpr ⟨mem, forTypes⟩)
    by_cases linked : ∃ statement ∈ runtime statements, statement.isLinkage = true
    · refine iff_of_true ?_ (.inl linked)
      obtain ⟨statement, mem, link⟩ := linked
      rw [left.absent.mpr ⟨gone, statement, mem, link⟩,
        whole.absent.mpr ⟨undefaulted, statement, (mem_runtime.mp mem).1, link⟩]
    · -- Nothing that is left makes the script a module, so the statements for types must not.
      rw [or_iff_right linked]
      constructor
      · intro same statement mem
        have unlinked := whole.unknown.mp (same.trans (left.unknown.mpr fun next listed =>
          eq_false_of_ne_true fun link => linked ⟨next, listed, link⟩))
        refine eq_false_of_ne_true fun forTypes => ?_
        exact Bool.false_ne_true ((unlinked statement mem).symm.trans
          (Statement.isLinkage_of_forTypes forTypes))
      · intro none
        rw [runtime_eq_self_iff.mpr none]
  · refine iff_of_false (fun same => ?_) fun both => typed both.1
    simp only [not_forall, not_not] at typed
    obtain ⟨statement, mem, -, default⟩ := typed
    exact kept (left.present.mp (same.symm.trans (whole.present.mpr ⟨statement, mem, default⟩)))

/-- **When the default export of a script is that of what is left when it runs.** A script exports a
default if one of its statements does, and has none if it is a module otherwise; the same holds of a
script from which the statements for types are deleted. The two answers are the same just when the
script exports a default for more than types, or none for types alone and is a module without the
statements for types as well, or has none of these. -/
theorem defaultExport_eq_runtime_iff {source path : String} {statements : List Statement}
    (script : read? (moduleFlavor path) source = some statements) :
    Signals statements (defaultExport source path) ∧
      (∀ erased, read? (moduleFlavor path) erased = some (runtime statements) →
        Signals (runtime statements) (defaultExport erased path) ∧
          defaultExport erased path = defaultSignal (runtime statements)) ∧
      (defaultExport source path = defaultSignal (runtime statements) ↔
        (∃ statement ∈ runtime statements, statement.ExportsDefault) ∨
          (∀ statement ∈ statements, statement.forTypes = true → ¬ statement.ExportsDefault) ∧
            ((∃ statement ∈ runtime statements, statement.isLinkage = true) ∨
              ∀ statement ∈ statements, statement.forTypes = false)) := by
  refine ⟨?_, fun erased rest => ⟨?_, defaultExport_eq rest⟩, ?_⟩
  · rw [defaultExport_eq script]
    exact signals_defaultSignal statements
  · rw [defaultExport_eq rest]
    exact signals_defaultSignal (runtime statements)
  · rw [defaultExport_eq script]
    exact defaultSignal_runtime_iff

/-- A script that imports and exports types, and exports a default. -/
def cardModule : String :=
  "import type { Size } from './size';\nexport type { Size };\n" ++
    "export { card as default } from './card';\n"

/-- The statement at a script with a type statement beside a real default export. The two agree
here, since the default is exported by a statement that is left at run time. -/
theorem defaultExport_eq_runtime_iff_card :
    ∃ statements, read? (moduleFlavor "/src/card.ts") cardModule = some statements ∧
      (∃ statement ∈ statements, statement.forTypes = true) ∧
      (∃ statement ∈ runtime statements, statement.ExportsDefault) ∧
      defaultExport cardModule "/src/card.ts" = defaultSignal (runtime statements) := by
  have chars : cardModule.toList = _ := Text.toList_ofList_append _ _
  have read : (read? (moduleFlavor "/src/card.ts") cardModule).map (fun statements =>
      (statements.any (·.forTypes), (runtime statements).any (·.exportsDefaultName))) =
        some (true, true) := by
    rewrite [read?, chars]
    decide +kernel
  obtain ⟨statements, script, both⟩ := Option.map_eq_some_iff.mp read
  obtain ⟨typed, kept⟩ := Prod.mk.inj both
  simp only [List.any_eq_true, Statement.exportsDefaultName_iff] at typed kept
  obtain ⟨-, -, same⟩ := defaultExport_eq_runtime_iff script
  exact ⟨statements, script, typed, kept, same.mpr (.inl kept)⟩

/-- A script that exports a default for types alone, and a value. -/
def typedModule : String :=
  "export type { Card as default } from './card';\nexport const size = 1;\n"

/-- The default that is exported for types alone counts. -/
theorem defaultExport_typed : defaultExport typedModule "/src/card.ts" = .present ∧
    ∃ statements, read? (moduleFlavor "/src/card.ts") typedModule = some statements ∧
      Signals (runtime statements) .absent := by
  have chars : typedModule.toList = _ := String.toList_ofList
  have read : (read? (moduleFlavor "/src/card.ts") typedModule).map
      (fun statements => (defaultSignal statements, defaultSignal (runtime statements))) =
        some (.present, .absent) := by
    rewrite [read?, chars]
    decide +kernel
  obtain ⟨statements, script, both⟩ := Option.map_eq_some_iff.mp read
  obtain ⟨whole, left⟩ := Prod.mk.inj both
  refine ⟨(defaultExport_eq script).trans whole, statements, script, ?_⟩
  rw [← left]
  exact signals_defaultSignal (runtime statements)

end StyleGraph.Script
