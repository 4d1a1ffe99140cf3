import StyleGraph.Proofs.Static.Steps
import StyleGraph.Proofs.Text.Cut

/-!
# What a module exports

A module exports a name itself (`explicitExports`), or passes on all that another module exports
(`starValue?`). What it exports itself should have precedence, wherever the two stand.

Bindings of the module have it: their values are looked up after all statements. All other values
are put down statement by statement, and a later one replaces an earlier one
(`evaluateModule_exports_explicit`). So a star export behind an export from another module, or
behind an export of a whole module, gives the name its own value (`evaluateModule_star_behind`).

What a module is evaluated with are tables, in which no name is given twice, since evaluation only
ever makes tables (`nodupKeys_exports`).
-/

set_option autoImplicit false

namespace StyleGraph.Static

open Script (Expression Statement Declarator ExportName Flavor)

/-! ## Tables that are filled in order -/

namespace Entries

/-- Of what is put down under a name the last value is found, else what was there before. Items
without a value put nothing down, so they do not hide an earlier one. -/
theorem get?_foldl_insert {α : Type} (key : α → String) (value? : α → Option Value)
    (items : List α) (known : Entries) (name : String) :
    (items.foldl (fun known item =>
        match value? item with
        | some value => known.insert (key item) value
        | none => known) known).get? name =
      ((items.filter (key · = name)).reverse.findSome? value?).or (known.get? name) := by
  induction items generalizing known with
  | nil => rfl
  | cons item items ih =>
    rw [List.foldl_cons, ih]
    cases found : value? item with
    | none => by_cases same : key item = name <;> simp [same, found]
    | some value =>
      by_cases same : key item = name <;> simp [same, found, get?_insert]

/-- A table that is filled in order stays a table, since a name that is there gets a new value in
its place. -/
theorem NodupKeys.foldl_insert {α : Type} {key : α → String} {value? : α → Option Value}
    (items : List α) {known : Entries} (nodup : known.NodupKeys) :
    Entries.NodupKeys (items.foldl (fun known item =>
      match value? item with
      | some value => known.insert (key item) value
      | none => known) known) := by
  induction items generalizing known with
  | nil => exact nodup
  | cons item items ih =>
    refine ih ?_
    dsimp only
    split
    next => exact nodup.insert _ _
    next => exact nodup

/-- A table without one of its names has all the others. So the exports of a star have the same
values as those of the module, but for its default. -/
theorem get?_filter (entries : Entries) (key name : String) :
    Entries.get? (entries.filter fun entry => entry.1 != key) name =
      if name = key then none else entries.get? name := by
  induction entries with
  | nil => simp [get?]
  | cons entry entries ih =>
    by_cases left : entry.1 = key
    · by_cases same : name = key
      · simpa [left, same] using ih
      · simp [left, same, get?, ih, Ne.symm same]
    · by_cases same : entry.1 = name
      · subst same
        simp [left, get?]
      · simp [left, same, get?, ih]

/-- The exports of a module replace what was there. -/
theorem get?_extend (known : Entries) {more : Entries} (nodup : more.NodupKeys) (name : String) :
    (known.extend more).get? name = (more.get? name).or (known.get? name) := by
  unfold Entries.extend
  induction more generalizing known with
  | nil => rfl
  | cons entry more ih =>
    obtain ⟨fresh, rest⟩ := List.nodup_cons.mp nodup
    rw [List.foldl_cons, ih _ rest, get?_insert, get?]
    split
    next same =>
      have absent : Entries.get? more name = none := by
        refine Option.eq_none_iff_forall_ne_some.mpr fun value found => ?_
        exact fresh (same ▸ List.mem_map_of_mem (f := Prod.fst) (mem_of_get? found))
      simp [absent]
    next => rfl

end Entries

/-! ## Exports of a statement -/

/-- Where the value of a name that a module exports itself comes from. -/
inductive Origin
  /-- A name that the module binds. -/
  | binding (inner : String)
  /-- One export of another module. -/
  | provided (source inner : String)
  /-- All exports of another module, as an object. -/
  | whole (source : String)
  /-- The expression of the default export. -/
  | computed (expression : Expression)

/-- The names that a statement exports itself. -/
def explicitExports : Statement → List (String × Origin)
  | .exports false declarators names source =>
    (declarators.flatMap fun d => d.target.names).map (fun name => (name, .binding name)) ++
      names.map fun name => (name.exported,
        match source with
        | none => .binding name.inner
        | some source => .provided source name.inner)
  | .exportsAll false (some name) source => [(name, .whole source)]
  | .exportsDefault (some expression) => [("default", .computed expression)]
  | _ => []

/-- The value that a statement passes on for a name, as one of all exports of another module. The
default of a module is not passed on. -/
def starValue? (environment : Environment) (name : String) : Statement → Option Value
  | .exportsAll false none source =>
    if name = "default" then none else (environment.exports? source).bind (·.get? name)
  | _ => none

/-- The value that the last of some statements passes on for a name. -/
def lastStar? (environment : Environment) (statements : List Statement) (name : String) :
    Option Value :=
  statements.reverse.findSome? (starValue? environment name)

namespace Origin

/-- Whether the module binds the value. -/
def isBinding : Origin → Bool
  | .binding _ => true
  | _ => false

/-- The entry of an export list that waits for a binding. -/
def pending? (name : String) : Origin → Option ExportName
  | .binding inner => some ⟨inner, name⟩
  | _ => none

/-- The value of an export that waits for no binding, when its statement starts in a state. -/
def immediate? (naming : Naming) (environment : Environment) (state : State) :
    Origin → Option Value
  | .binding _ => none
  | .provided source inner => (environment.exports? source).bind (·.get? inner)
  | .whole source => (environment.exports? source).map .object
  | .computed expression =>
    match Eval.eval naming (some "default") expression state with
    | .ok (value, _) => some value
    | .error _ => none

/-- The value of an export whose statement starts in one state, in a module that ends in
another. -/
def value? (naming : Naming) (environment : Environment) (between final : State)
    (origin : Origin) : Option Value :=
  match origin with
  | .binding inner => final.bindings.get? inner
  | _ => origin.immediate? naming environment between

end Origin

/-- The exports of each module are a table. -/
def Environment.NodupKeys (environment : Environment) : Prop :=
  ∀ entry ∈ environment, entry.2.NodupKeys

/-- The exports of a module in such an environment are a table. -/
theorem Environment.NodupKeys.exports? {environment : Environment}
    (nodup : environment.NodupKeys) {specifier : String} {entries : Entries}
    (found : environment.exports? specifier = some entries) : entries.NodupKeys := by
  obtain ⟨entry, search, rfl⟩ := Option.map_eq_some_iff.mp found
  exact nodup entry (List.mem_of_find?_eq_some search)

variable {naming : Naming} {environment : Environment}

/-- What is added to the exports: of the names that the module exports itself, those that it binds
are left for later. The values of the others are put down, and those that are passed on. What was a
table stays one. -/
structure Adds (naming : Naming) (environment : Environment) (state : State)
    (own : List (String × Origin)) (passed : String → Option Value)
    (exported next : Exported) : Prop where
  pending : next.pending = exported.pending ++ own.filterMap fun entry => entry.2.pending? entry.1
  known : ∀ name, next.known.get? name = (passed name).or
    (((own.filter (·.1 = name)).reverse.findSome?
      fun entry => entry.2.immediate? naming environment state).or (exported.known.get? name))
  table : exported.known.NodupKeys → next.known.NodupKeys

namespace Adds

variable {state : State} {exported middle next : Exported} {own more : List (String × Origin)}

/-- A statement that exports nothing adds nothing. -/
theorem nothing : Adds naming environment state [] (fun _ => none) exported exported where
  pending := (List.append_nil _).symm
  known _ := rfl
  table := id

/-- What is put down by two steps, one after the other, neither of which passes anything on. -/
theorem append (first : Adds naming environment state own (fun _ => none) exported middle)
    (second : Adds naming environment state more (fun _ => none) middle next) :
    Adds naming environment state (own ++ more) (fun _ => none) exported next where
  pending := by rw [second.pending, first.pending, List.filterMap_append, List.append_assoc]
  known name := by
    rw [second.known, first.known]
    simp [List.findSome?_append, Option.or_assoc]
  table := second.table ∘ first.table

/-- Names that the module binds wait for their values. So nothing is put down under them while the
statements are gone through. -/
theorem bindings {names : List ExportName} :
    Adds naming environment state (names.map fun name => (name.exported, .binding name.inner))
      (fun _ => none) exported (exported.addNames environment names none) where
  pending := by
    rw [List.filterMap_map]
    exact congrArg (exported.pending ++ ·) List.filterMap_some.symm
  known name := by
    have later : ((names.map fun name => (name.exported, Origin.binding name.inner)).filter
        (·.1 = name)).reverse.findSome?
          (fun entry => entry.2.immediate? naming environment state) = none := by
      refine List.findSome?_eq_none_iff.mpr fun entry mem => ?_
      obtain ⟨_, -, rfl⟩ := List.mem_map.mp (List.mem_filter.mp (List.mem_reverse.mp mem)).1
      rfl
    rw [later]
    rfl
  table := id

/-- The bindings of a declaration wait for their values until all statements were evaluated. -/
theorem declared {declarators : List Declarator} :
    Adds naming environment state
      ((declarators.flatMap fun d => d.target.names).map fun name => (name, .binding name))
      (fun _ => none) exported (exported.addVariables declarators) := by
  have added := @bindings naming environment state exported
    ((declarators.flatMap fun d => d.target.names).map fun name => ⟨name, name⟩)
  rw [List.map_map] at added
  exact added

/-- Names from another module get the values that it exports. What they give is settled at once, so
nothing of them is pending when the module ends. -/
theorem names {names : List ExportName} {source : String} :
    Adds naming environment state
      (names.map fun name => (name.exported, .provided source name.inner)) (fun _ => none)
      exported (exported.addNames environment names (some source)) where
  pending := by
    have settled : (names.map fun name => (name.exported, Origin.provided source name.inner)
        ).filterMap (fun entry => entry.2.pending? entry.1) = [] := by
      rw [List.filterMap_map]
      exact List.filterMap_eq_nil_iff.mpr fun _ _ => rfl
    rw [settled, List.append_nil]
    simp only [Exported.addNames]
    cases environment.exports? source <;> rfl
  known name := by
    rw [List.filter_map, ← List.map_reverse, List.findSome?_map, Option.none_or]
    simp only [Exported.addNames, Function.comp_def, Origin.immediate?]
    cases environment.exports? source with
    | none =>
      have absent : ((names.filter (·.exported = name)).reverse.findSome?
          fun _ => (none : Option Value)) = none :=
        List.findSome?_eq_none_iff.mpr fun _ _ => rfl
      exact (congrArg (Option.or · (exported.known.get? name)) absent).symm
    | some entries => exact Entries.get?_foldl_insert _ _ _ _ _
  table nodup := by
    simp only [Exported.addNames]
    cases environment.exports? source with
    | none => exact nodup
    | some entries => exact nodup.foldl_insert names

/-- A whole module is put down as an object. -/
theorem whole {name source : String} :
    Adds naming environment state [(name, .whole source)] (fun _ => none) exported
      (exported.addAll environment (some name) source) where
  pending := by
    unfold Exported.addAll
    cases environment.exports? source <;> simp [Origin.pending?]
  known other := by
    unfold Exported.addAll
    cases found : environment.exports? source with
    | none => by_cases same : name = other <;> simp [Origin.immediate?, found, same]
    | some entries =>
      by_cases same : name = other <;>
        simp [Origin.immediate?, found, same, Entries.get?_insert]
  table nodup := by
    unfold Exported.addAll
    cases environment.exports? source with
    | none => exact nodup
    | some entries => exact nodup.insert _ _

/-- All exports of another module are put down under their own names, without its default. A module
that is missing has no exports, so its star puts nothing down. -/
theorem star (nodup : environment.NodupKeys) {source : String} :
    Adds naming environment state []
      (fun name => starValue? environment name (.exportsAll false none source)) exported
      (exported.addAll environment none source) where
  pending := by
    unfold Exported.addAll
    cases environment.exports? source <;> simp
  known name := by
    simp only [Exported.addAll, starValue?]
    cases found : environment.exports? source with
    | none => simp
    | some entries =>
      have rest : Entries.NodupKeys (entries.filter fun entry => entry.1 != "default") :=
        (nodup.exports? found).sublist (List.filter_sublist.map Prod.fst)
      rw [Entries.get?_extend _ rest, Entries.get?_filter]
      rfl
  table known := by
    unfold Exported.addAll
    cases environment.exports? source with
    | none => exact known
    | some entries => exact known.extend _

/-- The value of the default export is put down under its name. -/
theorem default {expression : Expression} {value : Value} {after : State}
    (run : Eval.eval naming (some "default") expression state = .ok (value, after)) :
    Adds naming environment state [("default", .computed expression)] (fun _ => none) exported
      { exported with known := exported.known.insert "default" value } where
  pending := by simp [Origin.pending?]
  known name := by
    by_cases same : name = "default"
    · subst same
      simp [Origin.immediate?, run, Entries.get?_insert]
    · simp [Ne.symm same, Entries.get?_insert]
  table nodup := nodup.insert _ _

end Adds

/-- **A statement** adds the names that it exports itself, or what it passes on. The statement that
passes everything on is the only one that adds names it does not list. -/
theorem step_adds (nodup : environment.NodupKeys) {statement : Statement} {state after : State}
    {exported next : Exported}
    (run : Eval.step naming environment exported statement state = .ok (next, after)) :
    Adds naming environment state (explicitExports statement)
      (fun name => starValue? environment name statement) exported next := by
  cases statement with
  | imports typesOnly names source =>
    cases typesOnly with
    | true =>
      cases run
      exact .nothing
    | false =>
      simp only [Eval.step] at run
      split at run
      next =>
        obtain ⟨_, -, done⟩ := bind_eq_ok_iff.mp run
        cases done
        exact .nothing
      next =>
        cases run
        exact .nothing
  | declared declarators =>
    obtain ⟨_, -, done⟩ := bind_eq_ok_iff.mp run
    cases done
    exact .nothing
  | exports typesOnly declarators names source =>
    cases typesOnly with
    | true =>
      cases run
      exact .nothing
    | false =>
      obtain ⟨_, -, done⟩ := bind_eq_ok_iff.mp run
      cases done
      refine Adds.declared.append ?_
      cases source with
      | none => exact .bindings
      | some source => exact .names
  | exportsAll typesOnly name source =>
    cases typesOnly with
    | true =>
      cases run
      exact .nothing
    | false =>
      cases run
      cases name with
      | none => exact .star nodup
      | some name => exact .whole
  | exportsDefault value =>
    cases value with
    | none =>
      cases run
      exact .nothing
    | some expression =>
      obtain ⟨⟨value, _⟩, evaluated, done⟩ := bind_eq_ok_iff.mp run
      cases done
      exact .default evaluated
  | expression value =>
    obtain ⟨_, -, done⟩ := bind_eq_ok_iff.mp run
    cases done
    exact .nothing
  | other =>
    cases run
    exact .nothing

/-- The names that wait for a binding after some statements. By induction on the statements, each of
which adds its own names behind those before it. -/
theorem statements_pending (nodup : environment.NodupKeys) {statements : List Statement}
    {state after : State} {exported next : Exported}
    (run : statements.foldlM (Eval.step naming environment) exported state = .ok (next, after)) :
    next.pending = exported.pending ++
      (statements.flatMap explicitExports).filterMap fun entry => entry.2.pending? entry.1 := by
  induction statements generalizing state exported with
  | nil =>
    cases run
    exact (List.append_nil _).symm
  | cons statement statements ih =>
    rw [List.foldlM_cons] at run
    obtain ⟨⟨middle, between⟩, first, rest⟩ := bind_eq_ok_iff.mp run
    rw [ih rest, (step_adds nodup first).pending, List.flatMap_cons, List.filterMap_append,
      List.append_assoc]

/-- What statements put down under a name that none of them exports itself. Stars are the only
statements left that can put it down, and a later star replaces an earlier one. -/
theorem statements_known (nodup : environment.NodupKeys) {statements : List Statement}
    {state after : State} {exported next : Exported} {name : String}
    (run : statements.foldlM (Eval.step naming environment) exported state = .ok (next, after))
    (passed : ∀ entry ∈ statements.flatMap explicitExports, entry.1 ≠ name) :
    next.known.get? name =
      (lastStar? environment statements name).or (exported.known.get? name) := by
  induction statements generalizing state exported with
  | nil =>
    cases run
    rfl
  | cons statement statements ih =>
    rw [List.foldlM_cons] at run
    obtain ⟨⟨middle, between⟩, first, rest⟩ := bind_eq_ok_iff.mp run
    rw [List.flatMap_cons, List.forall_mem_append] at passed
    have none_own : (explicitExports statement).filter (·.1 = name) = [] :=
      List.filter_eq_nil_iff.mpr fun entry mem => by simpa using passed.1 entry mem
    rw [ih rest passed.2, (step_adds nodup first).known, none_own]
    simp [lastStar?, List.findSome?_append, Option.or_assoc]

/-! ## Exports of a module -/

/-- The state after the statements of a module. -/
def stateAfter (naming : Naming) (environment : Environment) (statements : List Statement) :
    Except Stop State := do
  let (_, state) ← runStatements naming environment statements {}
  pure state

/-- Statements only ever make tables of tables, by induction on the statements. -/
theorem statements_table (nodup : environment.NodupKeys) {statements : List Statement}
    {state after : State} {exported next : Exported}
    (run : statements.foldlM (Eval.step naming environment) exported state = .ok (next, after))
    (table : exported.known.NodupKeys) : next.known.NodupKeys := by
  induction statements generalizing state exported with
  | nil =>
    cases run
    exact table
  | cons statement statements ih =>
    rw [List.foldlM_cons] at run
    obtain ⟨⟨middle, between⟩, first, rest⟩ := bind_eq_ok_iff.mp run
    exact ih rest ((step_adds nodup first).table table)

/-- The exports of a module that was evaluated are a table. -/
theorem nodupKeys_exports (nodup : environment.NodupKeys) {source path project : String}
    {evaluated : Evaluated}
    (evaluates : evaluateModule source path project environment = .ok evaluated) :
    evaluated.exports.NodupKeys := by
  obtain ⟨statements, exported, -, run, rfl⟩ := evaluateModule_eq_ok_iff.mp evaluates
  exact (statements_table nodup run .nil).foldl_insert exported.pending

/-- The entries that wait to be exported under a name. -/
theorem filter_pending (own : List (String × Origin)) (name : String) :
    (own.filterMap fun entry => entry.2.pending? entry.1).filter (·.exported = name) =
      (own.filter (·.1 = name)).filterMap fun entry => entry.2.pending? entry.1 := by
  rw [List.filter_filterMap, List.filterMap_filter]
  refine congrArg (List.filterMap · own) (funext fun entry => ?_)
  cases entry.2 with
  | binding inner => by_cases same : entry.1 = name <;> simp [Origin.pending?, same]
  | provided _ _ => simp [Origin.pending?]
  | whole _ => simp [Origin.pending?]
  | computed _ => simp [Origin.pending?]

/-- An item that a filter finds once is found in one part of a list only. -/
theorem filter_once {α : Type} {p : α → Bool} {first middle last : List α} {item : α}
    (once : (first ++ (middle ++ last)).filter p = [item]) (mem : item ∈ middle) :
    first.filter p = [] ∧ middle.filter p = [item] ∧ last.filter p = [] := by
  have holds : p item = true := (List.mem_filter.mp (once ▸ List.mem_singleton_self item)).2
  have found : middle.filter p ≠ [] := List.ne_nil_of_mem (List.mem_filter.mpr ⟨mem, holds⟩)
  rw [List.filter_append, List.filter_append] at once
  rcases List.append_eq_singleton_iff.mp once with ⟨ahead, once⟩ | ⟨-, none_left⟩
  · rcases List.append_eq_singleton_iff.mp once with ⟨absent, -⟩ | ⟨here, behind⟩
    · exact absurd absent found
    · exact ⟨ahead, here, behind⟩
  · exact absurd (List.append_eq_nil_iff.mp none_left).1 found

/-- A statement that exports names itself passes nothing on. -/
theorem starValue?_of_explicit {statement : Statement} (explicit : explicitExports statement ≠ [])
    (name : String) : starValue? environment name statement = none := by
  unfold starValue?
  split
  next => exact absurd rfl explicit
  next => rfl

/-- What is put down under a name that one of some statements exports itself. The lists before and
after the statement hold the name not at all, so it is enough to follow the value from that
statement on. -/
theorem statements_known_once (nodup : environment.NodupKeys) {before after : List Statement}
    {statement : Statement} {name : String} {origin : Origin} {exported : Exported}
    {between final : State}
    (began : stateAfter naming environment before = .ok between)
    (run : (before ++ statement :: after).foldlM (Eval.step naming environment) {} {} =
      .ok (exported, final))
    (once : ((before ++ statement :: after).flatMap explicitExports).filter (·.1 = name) =
      [(name, origin)])
    (listed : (name, origin) ∈ explicitExports statement) :
    exported.known.get? name = (lastStar? environment after name).or
      ((origin.immediate? naming environment between).or (lastStar? environment before name)) := by
  rw [List.flatMap_append, List.flatMap_cons] at once
  obtain ⟨ahead, here, behind⟩ := filter_once once listed
  have others : ∀ {own : List (String × Origin)}, own.filter (·.1 = name) = [] →
      ∀ entry ∈ own, entry.1 ≠ name := fun none_own entry mem same =>
    List.filter_eq_nil_iff.mp none_own entry mem (by simpa using same)
  rw [List.foldlM_append] at run
  obtain ⟨⟨first, _⟩, runBefore, run⟩ := bind_eq_ok_iff.mp run
  dsimp only at run
  rw [List.foldlM_cons] at run
  obtain ⟨⟨middle, later⟩, step, runAfter⟩ := bind_eq_ok_iff.mp run
  obtain ⟨⟨_, _⟩, runAgain, same⟩ := bind_eq_ok_iff.mp began
  cases same
  cases runBefore.symm.trans runAgain
  rw [statements_known nodup runAfter (others behind), (step_adds nodup step).known, here,
    statements_known nodup runBefore (others ahead),
    starValue?_of_explicit (List.ne_nil_of_mem listed)]
  simp [Entries.get?]

/-- What is exported under a name in the end. -/
theorem Exported.get?_settle (exported : Exported) (bindings : Entries) (name : String) :
    (exported.settle bindings).get? name =
      ((exported.pending.filter (·.exported = name)).reverse.findSome?
        fun entry => bindings.get? entry.inner).or (exported.known.get? name) :=
  Entries.get?_foldl_insert _ _ _ _ _

/-- What a module exports is settled in the state that its statements end in. -/
theorem evaluateModule_of_run {source path project : String} {statements : List Statement}
    {exported : Exported} {final : State}
    (read : Script.read? ((Flavor.ofPath? path).getD .plain) source = some statements)
    (run : statements.foldlM (Eval.step (.ofPath path project) environment) {} {} =
      .ok (exported, final)) :
    evaluateModule source path project environment =
      .ok { css := final.output.render, exports := exported.settle final.bindings } := by
  have ends := moduleState_of_run read run
  exact evaluateModule_eq_ok_iff.mpr ⟨statements, exported, read, ends ▸ run, by rw [ends]⟩

/-- **A name that a module exports itself**, as a script may do once for each name, gets the value of
that export when the module binds it. Else a star export behind it has precedence, and only one
ahead of it gives way. What is exported is a table again, as what the module was evaluated with. -/
theorem evaluateModule_exports_explicit (nodup : environment.NodupKeys)
    {source path project name : String} {before after : List Statement} {statement : Statement}
    {origin : Origin} {between final : State}
    (read : Script.read? ((Flavor.ofPath? path).getD .plain) source =
      some (before ++ statement :: after))
    (began : stateAfter (.ofPath path project) environment before = .ok between)
    (ended : stateAfter (.ofPath path project) environment (before ++ statement :: after) =
      .ok final)
    (once : ((before ++ statement :: after).flatMap explicitExports).filter (·.1 = name) =
      [(name, origin)])
    (listed : (name, origin) ∈ explicitExports statement) :
    ∃ evaluated, evaluateModule source path project environment = .ok evaluated ∧
      evaluated.exports.NodupKeys ∧
      evaluated.exports.get? name =
        (if origin.isBinding then
          (origin.value? (.ofPath path project) environment between final).or
            ((lastStar? environment after name).or (lastStar? environment before name))
        else
          (lastStar? environment after name).or
            ((origin.value? (.ofPath path project) environment between final).or
              (lastStar? environment before name))) ∧
      ∀ value, origin.value? (.ofPath path project) environment between final = some value →
        (evaluated.exports.get? name = some value ↔ origin.isBinding = true ∨
          ∀ other, lastStar? environment after name = some other → other = value) := by
  obtain ⟨⟨exported, _⟩, run, done⟩ := bind_eq_ok_iff.mp ended
  cases done
  have pending := statements_pending nodup run
  have known := statements_known_once nodup began run once listed
  -- a binding is settled at the end, after all stars; any other value where it stands
  have found : (exported.settle final.bindings).get? name =
      if origin.isBinding then
        (origin.value? (.ofPath path project) environment between final).or
          ((lastStar? environment after name).or (lastStar? environment before name))
      else
        (lastStar? environment after name).or
          ((origin.value? (.ofPath path project) environment between final).or
            (lastStar? environment before name)) := by
    rw [Exported.get?_settle, pending, List.nil_append, filter_pending, once, known]
    cases origin with
    | binding inner => simp [Origin.pending?, Origin.isBinding, Origin.value?, Origin.immediate?]
    | provided source inner => rfl
    | whole source => rfl
    | computed expression => rfl
  have evaluates := evaluateModule_of_run read run
  refine ⟨_, evaluates, nodupKeys_exports nodup evaluates, found, fun value own => ?_⟩
  rw [found, own]
  cases origin.isBinding with
  | true => simp
  | false =>
    cases lastStar? environment after name with
    | none => simp
    | some other => simp

/-- The exports of two themes that give the same names other colours. -/
def themes : Environment :=
  [("./day.css", [("ink", .text "black"), ("paper", .text "white")]),
    ("./night.css", [("ink", .text "silver"), ("paper", .text "navy")])]

/-- The themes are tables. -/
theorem nodupKeys_themes : themes.NodupKeys := by
  unfold Environment.NodupKeys Entries.NodupKeys themes
  decide

/-- A module that passes on one theme between two exports from the other. -/
def mixedSource : String :=
  "export \x7bink\x7d from './day.css';export * from './night.css';" ++
    "export \x7bpaper\x7d from './day.css'"

/-- The names and the sources of two exports from other modules with a star export between them.
Unlike statements they can be compared. -/
def mixedParts? :
    List Statement → Option (List ExportName × String × String × List ExportName × String)
  | [.exports false [] first (some source), .exportsAll false none passed,
      .exports false [] second (some again)] => some (first, source, passed, second, again)
  | _ => none

/-- The three statements of the module. -/
theorem read_mixedSource :
    Script.read? ((Flavor.ofPath? "/app/mixed.css.ts").getD .plain) mixedSource =
      some [.exports false [] [⟨"ink", "ink"⟩] (some "./day.css"),
        .exportsAll false none "./night.css",
        .exports false [] [⟨"paper", "paper"⟩] (some "./day.css")] := by
  have chars : mixedSource.toList = _ := Text.toList_ofList_append _ _
  have parts : (Script.read? ((Flavor.ofPath? "/app/mixed.css.ts").getD .plain) mixedSource).bind
      mixedParts? = some ([⟨"ink", "ink"⟩], "./day.css", "./night.css", [⟨"paper", "paper"⟩],
        "./day.css") := by
    rewrite [Script.read?, chars]
    decide +kernel
  obtain ⟨statements, read, parts⟩ := Option.bind_eq_some_iff.mp parts
  unfold mixedParts? at parts
  split at parts
  next =>
    cases parts
    exact read
  next => cases parts

/-- The export behind the other theme keeps its colour. -/
theorem evaluateModule_exports_explicit_paper :
    themes.NodupKeys ∧
      (∃ before statement,
        Script.read? ((Flavor.ofPath? "/app/mixed.css.ts").getD .plain) mixedSource =
          some (before ++ [statement]) ∧
        ("paper", .provided "./day.css" "paper") ∈ explicitExports statement ∧
        lastStar? themes before "paper" = some (.text "navy")) ∧
      ∃ evaluated, evaluateModule mixedSource "/app/mixed.css.ts" "/app" themes = .ok evaluated ∧
        evaluated.exports.get? "paper" = some (.text "white") := by
  let before : List Statement := [.exports false [] [⟨"ink", "ink"⟩] (some "./day.css"),
    .exportsAll false none "./night.css"]
  let statement : Statement := .exports false [] [⟨"paper", "paper"⟩] (some "./day.css")
  have read : Script.read? ((Flavor.ofPath? "/app/mixed.css.ts").getD .plain) mixedSource =
      some (before ++ [statement]) := read_mixedSource
  have listed : ("paper", .provided "./day.css" "paper") ∈ explicitExports statement :=
    List.mem_cons_self
  obtain ⟨evaluated, evaluates, -, found, -⟩ :=
    @evaluateModule_exports_explicit themes nodupKeys_themes mixedSource "/app/mixed.css.ts" "/app"
      "paper" before [] statement (.provided "./day.css" "paper") {} {} read rfl rfl rfl listed
  exact ⟨nodupKeys_themes, ⟨before, statement, read, listed, rfl⟩, evaluated, evaluates, found⟩

/-- **A star export behind an export from another module** replaces its value: the module exports
the ink of the day itself, and gives that of the night. -/
theorem evaluateModule_star_behind :
    ∃ statements evaluated,
      Script.read? ((Flavor.ofPath? "/app/mixed.css.ts").getD .plain) mixedSource =
        some statements ∧
      ("ink", .provided "./day.css" "ink") ∈ statements.flatMap explicitExports ∧
      (themes.exports? "./day.css").bind (·.get? "ink") = some (.text "black") ∧
      evaluateModule mixedSource "/app/mixed.css.ts" "/app" themes = .ok evaluated ∧
      evaluated.exports.get? "ink" = some (.text "silver") :=
  ⟨_, _, read_mixedSource, List.mem_cons_self, rfl, evaluateModule_of_run read_mixedSource rfl, rfl⟩

end StyleGraph.Static
