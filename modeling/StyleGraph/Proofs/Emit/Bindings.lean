import Mathlib.Data.List.Nodup
import StyleGraph.Proofs.Emit.Layout
import StyleGraph.Proofs.Stable.Literal
import StyleGraph.Proofs.Text.Blank
import StyleGraph.Script.Literal

/-!
# Bindings of combined and bridge modules

A combined module and a bridge module bind names of their own, and among them one that is given
from outside: the name of the export with the styles. That name is checked (`isIdentifier`), but the
check is not all that a module asks of it. It lets two names pass that strict code cannot bind
(`isBindable_iff`), and it knows nothing of the names that the module binds itself. So the names of
a module are fit to be bound just when the given one is neither of the two and none of the module's
own (`isDeclarable_iff`).

The module that is bound for each style of a script has a name with the number of the style in it;
no two are the same (`nodup_styleAliases`).
-/

set_option autoImplicit false

namespace StyleGraph.Emit

/-! ## Names that can be bound -/

/-- Words that the code of a module cannot bind: the reserved words of the language, those of strict
code and of modules, and the two names that strict code does not bind. -/
def unbindableWords : List String :=
  ["arguments", "await", "break", "case", "catch", "class", "const", "continue", "debugger",
    "default", "delete", "do", "else", "enum", "eval", "export", "extends", "false", "finally", "for",
    "function", "if", "implements", "import", "in", "instanceof", "interface", "let", "new", "null",
    "package", "private", "protected", "public", "return", "static", "super", "switch", "this",
    "throw", "true", "try", "typeof", "var", "void", "while", "with", "yield"]

/-- A name that the code of a module may bind. -/
structure IsBindable (name : String) : Prop where
  start : ∃ first rest, name.toList = first :: rest ∧ Script.Literal.isWordStart first = true ∧
    ∀ c ∈ rest, Script.Literal.isWordPart c = true
  free : name ∉ unbindableWords

/-- A word is refused as the name of an export just when it cannot be bound, but for two. -/
theorem mem_unbindableWords_iff {word : String} :
    word ∈ unbindableWords ↔ word = "arguments" ∨ word = "eval" ∨ word ∈ reservedWords := by
  have split : unbindableWords =
      "arguments" :: (reservedWords.take 13 ++ "eval" :: reservedWords.drop 13) := rfl
  have parts : word ∈ reservedWords ↔
      word ∈ reservedWords.take 13 ∨ word ∈ reservedWords.drop 13 := by
    rw [← List.mem_append, List.take_append_drop]
  rw [split, parts, List.mem_cons, List.mem_append, List.mem_cons, or_left_comm (a := word = "eval")]

/-- Whatever begins an identifier here begins a word for the reader of scripts. -/
theorem isWordStart_of_isNameStart {c : Char} (start : isNameStart c = true) :
    Script.Literal.isWordStart c = true := by
  simp only [isNameStart, Bool.or_eq_true, beq_iff_eq] at start
  simp only [Script.Literal.isWordStart, Bool.or_eq_true, decide_eq_true_eq]
  rcases start with (letter | rfl) | rfl
  · have alphanumeric : c.isAlphanum = true := by rw [Char.isAlphanum, letter, Bool.true_or]
    have range := Text.toNat_of_isAlphanum alphanumeric
    refine .inr ?_
    rw [Text.isIdentifierStart, if_pos (by omega)]
    exact letter
  · exact .inl (.inr rfl)
  · exact .inl (.inl rfl)

/-- Whatever goes on an identifier here goes on a word there. -/
theorem isWordPart_of_isNameChar {c : Char} (part : isNameChar c = true) :
    Script.Literal.isWordPart c = true := by
  simp only [isNameChar, Bool.or_eq_true, beq_iff_eq] at part
  rcases part with (alphanumeric | rfl) | rfl
  · have range := Text.toNat_of_isAlphanum alphanumeric
    have continues : Text.isIdentifierContinue c = true := by
      rw [Text.isIdentifierContinue, if_pos (by omega), alphanumeric, Bool.true_or]
    simp only [Script.Literal.isWordPart, continues, Bool.or_true, Bool.true_or]
  · decide
  · decide

/-- An identifier has characters of identifiers only, its first one included. -/
theorem isNameChar_of_isIdentifier {name : String} (valid : isIdentifier name = true) :
    ∀ c ∈ name.toList, isNameChar c = true := by
  intro c mem
  by_contra special
  exact not_mem_of_isIdentifier valid (eq_false_of_ne_true special) mem

/-- **A name that can be exported can be bound**, unless it is one of two. The two are no reserved
words, and the check of names does not know them; in strict code they cannot be bound. -/
theorem isBindable_iff {name : String} (valid : isIdentifier name = true) :
    IsBindable name ↔ name ≠ "eval" ∧ name ≠ "arguments" := by
  have named := isNameChar_of_isIdentifier valid
  unfold isIdentifier at valid
  split at valid
  · cases valid
  next first rest chars =>
    simp only [Bool.and_eq_true, Bool.not_eq_true', List.contains_eq_mem,
      decide_eq_false_iff_not] at valid
    obtain ⟨⟨begins, _⟩, unreserved⟩ := valid
    constructor
    · intro bindable
      refine ⟨?_, ?_⟩
      · rintro rfl
        exact bindable.free (mem_unbindableWords_iff.mpr (.inr (.inl rfl)))
      · rintro rfl
        exact bindable.free (mem_unbindableWords_iff.mpr (.inl rfl))
    · rintro ⟨notEval, notArguments⟩
      refine ⟨⟨first, rest, chars, isWordStart_of_isNameStart begins, ?_⟩, ?_⟩
      · intro c mem
        exact isWordPart_of_isNameChar (named c (by rw [chars]; exact List.mem_cons_of_mem _ mem))
      · rw [mem_unbindableWords_iff]
        rintro (same | same | reserved)
        · exact notArguments same
        · exact notEval same
        · exact unreserved reserved

/-- Names that the code of a module may bind next to each other. -/
structure IsDeclarable (names : List String) : Prop where
  distinct : names.Nodup
  bindable : ∀ name ∈ names, IsBindable name

/-- **One more name can be declared** just when it can be bound and is not there yet. The position
does not matter, as being declarable asks for distinct names and for no order. -/
theorem isDeclarable_iff {before after : List String} (own : IsDeclarable (before ++ after))
    {name : String} (valid : isIdentifier name = true) :
    IsDeclarable (before ++ name :: after) ↔
      name ∉ before ++ after ∧ name ≠ "eval" ∧ name ≠ "arguments" := by
  rw [← isBindable_iff valid]
  constructor
  · intro declarable
    refine ⟨(List.nodup_middle.mp declarable.distinct).notMem, ?_⟩
    exact declarable.bindable name (by simp)
  · rintro ⟨new, bindable⟩
    refine ⟨List.nodup_middle.mpr (List.nodup_cons.mpr ⟨new, own.distinct⟩), ?_⟩
    intro other mem
    rcases List.mem_append.mp mem with before | mem
    · exact own.bindable other (List.mem_append_left _ before)
    · rcases List.mem_cons.mp mem with rfl | after
      · exact bindable
      · exact own.bindable other (List.mem_append_right _ after)

/-- Names that can be exported. -/
theorem isDeclarable_of_valid {names : List String} (distinct : names.Nodup)
    (valid : ∀ name ∈ names, isIdentifier name = true ∧ name ≠ "eval" ∧ name ≠ "arguments") :
    IsDeclarable names :=
  ⟨distinct, fun name mem => (isBindable_iff (valid name mem).1).mpr (valid name mem).2⟩

/-- Some of the names that can be declared together can be. -/
theorem IsDeclarable.sublist {names others : List String} (declarable : IsDeclarable others)
    (part : names.Sublist others) : IsDeclarable names :=
  ⟨declarable.distinct.sublist part, fun name mem => declarable.bindable name (part.subset mem)⟩

/-- Names of two kinds can be declared together if no name is of both. -/
theorem IsDeclarable.append {names others : List String} (declarable : IsDeclarable names)
    (declarableOthers : IsDeclarable others) (apart : ∀ name ∈ names, name ∉ others) :
    IsDeclarable (names ++ others) where
  distinct := by
    refine List.nodup_append.mpr ⟨declarable.distinct, declarableOthers.distinct, ?_⟩
    rintro name mem other listed rfl
    exact apart name mem listed
  bindable := fun name mem =>
    (List.mem_append.mp mem).elim (declarable.bindable name) (declarableOthers.bindable name)

/-- The names that generated modules bind, but for those that are given or numbered. -/
def fixedNames : List String :=
  [CombinedPlan.sourceAlias, CombinedPlan.cssAlias, styleAlias, modulesHelperName,
    CombinedPlan.defaultAlias, CombinedPlan.modulesAlias, modulesExport, stableExport]

/-- The names that modules always use are identifiers. -/
theorem valid_of_mem_fixedNames : ∀ name ∈ fixedNames, isIdentifier name = true := by
  decide +kernel

/-- They can be declared together, whichever of them a module uses. -/
theorem isDeclarable_fixedNames : IsDeclarable fixedNames := by
  refine isDeclarable_of_valid (by decide) fun name known => ?_
  have others : ∀ name ∈ fixedNames, name ≠ "eval" ∧ name ≠ "arguments" := by decide
  exact ⟨valid_of_mem_fixedNames name known, others name known⟩

/-- They stay on one line. -/
theorem newline_not_mem_of_fixedNames {name : String} (known : name ∈ fixedNames) :
    '\n' ∉ name.toList :=
  not_mem_of_isIdentifier (valid_of_mem_fixedNames name known) (by decide)

/-- A constant can be found by its line if its name is an identifier and its value stays on that
line. -/
theorem Stmt.isLaid_const {name : String} {init : Expr} (valid : isIdentifier name = true)
    (lines : ∀ part ∈ init.verbatim, '\n' ∉ part.toList) : (Stmt.const name init).IsLaid :=
  ⟨isNameChar_of_isIdentifier valid, Expr.newline_not_mem_render lines⟩

/-- The same for a constant that is exported. -/
theorem Stmt.isLaid_exportConst {name : String} {init : Expr} (valid : isIdentifier name = true)
    (lines : ∀ part ∈ init.verbatim, '\n' ∉ part.toList) : (Stmt.exportConst name init).IsLaid :=
  ⟨isNameChar_of_isIdentifier valid, Expr.newline_not_mem_render lines⟩

/-- The names of the exports that may come after the styles. -/
def furtherExports (modules stable : Bool) : List String :=
  (if modules then [modulesExport] else []) ++ if stable then [stableExport] else []

/-- The exports behind the CSS are some of two, in their order. -/
theorem furtherExports_sublist (modules stable : Bool) :
    (furtherExports modules stable).Sublist [modulesExport, stableExport] := by
  cases modules <;> cases stable <;> decide

/-! ## Combined modules -/

namespace CombinedPlan

variable (plan : CombinedPlan)

/-- The names that a combined module binds before the one that is given. -/
def earlierNames : List String :=
  [sourceAlias, cssAlias, modulesHelperName, defaultAlias, modulesAlias]

/-- The names of a combined module apart from that of the CSS. -/
theorem isDeclarable_names (modules stable : Bool) :
    IsDeclarable (earlierNames ++ furtherExports modules stable) := by
  have fixed : (earlierNames ++ [modulesExport, stableExport]).Sublist fixedNames := by decide
  refine isDeclarable_fixedNames.sublist (List.Sublist.trans ?_ fixed)
  exact (List.Sublist.refl _).append (furtherExports_sublist modules stable)

/-- What a combined module binds, in the order of its text. -/
theorem binds_toModule :
    plan.toModule.binds =
      earlierNames ++ plan.exportName :: furtherExports plan.includeModules plan.includeStable := by
  obtain ⟨source, request, name, modules, stable, default⟩ := plan
  cases modules <;> cases stable <;> rfl

/-- Each statement of a combined module can be found by its line, whatever is exported. The names
are fixed but for the exported one, and no value spans a line, so only that name has to be looked
at. -/
theorem isLaid_toModule (valid : isIdentifier plan.exportName = true) : plan.toModule.IsLaid where
  imports := by
    have known : ∀ name ∈ [sourceAlias, cssAlias], name ∈ fixedNames := by simp [fixedNames]
    intro item mem
    exact isNameChar_of_isIdentifier (valid_of_mem_fixedNames _
      (known item.name (List.mem_map_of_mem (f := NamespaceImport.name) mem)))
  statements := by
    have line : ∀ name ∈ fixedNames, ∀ part ∈ [name], '\n' ∉ part.toList := by
      intro name known part mem
      rw [List.mem_singleton.mp mem]
      exact newline_not_mem_of_fixedNames known
    have named : ∀ name ∈ [defaultAlias, modulesAlias, modulesExport, stableExport],
        isIdentifier name = true :=
      fun name mem => valid_of_mem_fixedNames name (by
        revert name
        simp [fixedNames])
    have source := line sourceAlias (by simp [fixedNames])
    have css := line cssAlias (by simp [fixedNames])
    have modules := line modulesAlias (by simp [fixedNames])
    intro stmt mem
    simp only [toModule, List.mem_append, List.mem_cons, List.not_mem_nil, or_false,
      List.mem_ite_nil_right] at mem
    rcases mem with (rfl | rfl) | ((rfl | ⟨_, rfl⟩) | ⟨_, rfl⟩)
    · exact Stmt.isLaid_const (named _ (by simp)) source
    · exact Stmt.isLaid_const (named _ (by simp)) css
    · exact Stmt.isLaid_exportConst valid css
    · exact Stmt.isLaid_exportConst (named _ (by simp)) modules
    · exact Stmt.isLaid_exportConst (named _ (by simp)) css
  defaultExport := by
    intro expr given
    simp only [toModule, Option.ite_none_right_eq_some, Option.some.injEq] at given
    rw [← given.2, Expr.render]
    exact newline_not_mem_of_fixedNames (by simp [fixedNames])

end CombinedPlan

/-! ## Bridge modules -/

/-- The names under which the styles of a script are imported. -/
def styleAliases (count : Nat) : List String :=
  (List.range count).map fun i => styleAlias ++ toString i

/-- A number is read back from its digits. By the recursion that makes the digits: the last one
stands for the remainder. -/
theorem valueOf_toDigits (n : Nat) : Script.Literal.valueOf 10 (Nat.toDigits 10 n) = n := by
  have digit : ∀ n < 10, Text.hexValue? (Nat.digitChar n) = some n := by decide
  induction n using Nat.strongRecOn with
  | ind n ih =>
    by_cases small : n < 10
    · simp [Nat.toDigits_of_lt_base small, Script.Literal.valueOf, digit n small]
    · have before := ih (n / 10) (by omega)
      have last := digit (n % 10) (by omega)
      rw [Nat.toDigits_of_base_le (by decide) (by omega)]
      simp only [Script.Literal.valueOf] at before
      simp only [Script.Literal.valueOf, List.foldl_append, before, List.foldl_cons,
        List.foldl_nil, last, Option.getD_some]
      omega

/-- The alias of a style is a fixed word with its number. -/
theorem toList_styleAlias (i : Nat) :
    (styleAlias ++ toString i).toList = styleAlias.toList ++ Nat.toDigits 10 i := by
  rw [String.toList_append, show toString i = String.ofList (Nat.toDigits 10 i) from rfl,
    String.toList_ofList]

/-- **No two styles are imported under one name.** -/
theorem nodup_styleAliases (count : Nat) : (styleAliases count).Nodup := by
  refine List.Nodup.map ?_ List.nodup_range
  intro i j same
  have written := congrArg String.toList same
  simp only [toList_styleAlias, List.append_cancel_left_eq] at written
  rw [← valueOf_toDigits i, written, valueOf_toDigits]

/-- The names of imported styles can be exported and are none of the other names. A number behind
the stem keeps the names apart from the fixed ones, which have none. -/
theorem valid_of_mem_styleAliases {count : Nat} {name : String} (mem : name ∈ styleAliases count) :
    isIdentifier name = true ∧
      ∀ other ∈ ["eval", "arguments", modulesHelperName, modulesExport], name ≠ other := by
  obtain ⟨i, _, rfl⟩ := List.mem_map.mp mem
  have long : ∀ word ∈ reservedWords ++ ["eval", "arguments"], styleAlias ++ toString i ≠ word := by
    have short : ∀ word ∈ reservedWords ++ ["eval", "arguments"],
        word.utf8ByteSize < styleAlias.utf8ByteSize := by
      decide +kernel
    rintro word known rfl
    have size := short _ known
    rw [String.utf8ByteSize_append] at size
    omega
  have apart : ∀ other ∈ [modulesHelperName, modulesExport], styleAlias ++ toString i ≠ other := by
    have begins : ∀ other ∈ [modulesHelperName, modulesExport],
        ¬ styleAlias.toList <+: other.toList := by
      simp [styleAlias, modulesHelperName, modulesExport]
    rintro other known rfl
    exact begins _ known ⟨_, (toList_styleAlias i).symm⟩
  constructor
  · have known : isIdentifier styleAlias = true := valid_of_mem_fixedNames _ (by simp [fixedNames])
    have begins : styleAlias.toList = '_' :: styleAlias.toList.tail := by simp [styleAlias]
    have continues : ∀ c ∈ styleAlias.toList.tail, isNameChar c = true := fun c listed =>
      isNameChar_of_isIdentifier known c (List.mem_of_mem_tail listed)
    have digits : ∀ c ∈ Nat.toDigits 10 i, isNameChar c = true := by
      intro c listed
      have digit : c.isDigit = true := Nat.isDigit_of_mem_toDigits (by decide) (by decide) listed
      rw [isNameChar, Char.isAlphanum, digit, Bool.or_true, Bool.true_or, Bool.true_or]
    have unreserved : reservedWords.contains (styleAlias ++ toString i) = false := by
      rw [← Bool.not_eq_true, List.contains_iff_mem]
      exact fun reserved => long _ (List.mem_append_left _ reserved) rfl
    have chars : (styleAlias ++ toString i).toList =
        '_' :: (styleAlias.toList.tail ++ Nat.toDigits 10 i) := by
      rw [toList_styleAlias, begins, List.tail_cons, List.cons_append]
    unfold isIdentifier
    rw [chars]
    simp only [unreserved, Bool.not_false, Bool.and_true, Bool.and_eq_true, List.all_eq_true,
      List.mem_append]
    exact ⟨by decide, fun c listed => listed.elim (continues c) (digits c)⟩
  · intro other known
    rcases List.mem_append.mp (show other ∈ ["eval", "arguments"] ++ _ from known) with word | name
    · exact long other (List.mem_append_right _ word)
    · exact apart other name

/-- The names that the bridge module of a script binds before the one that is given. -/
def bridgeNames (count : Nat) : List String :=
  styleAliases count ++ if count = 0 then [] else [modulesHelperName]

/-- Any number of styles can be imported. -/
theorem isDeclarable_styleAliases (count : Nat) : IsDeclarable (styleAliases count) := by
  refine isDeclarable_of_valid (nodup_styleAliases count) fun name mem => ?_
  obtain ⟨valid, apart⟩ := valid_of_mem_styleAliases mem
  exact ⟨valid, apart _ (by simp), apart _ (by simp)⟩

/-- The aliases of the styles differ from each other and from all fixed names: numbers that differ
are written differently. -/
theorem isDeclarable_bridgeNames (count : Nat) :
    IsDeclarable (bridgeNames count ++ furtherExports true false) := by
  have fixed : [modulesHelperName, modulesExport].Sublist fixedNames := by decide
  have all : IsDeclarable (styleAliases count ++ [modulesHelperName, modulesExport]) := by
    refine (isDeclarable_styleAliases count).append (isDeclarable_fixedNames.sublist fixed) ?_
    intro name mem known
    refine (valid_of_mem_styleAliases mem).2 name ?_ rfl
    exact List.mem_cons_of_mem _ (List.mem_cons_of_mem _ known)
  have helper : (if count = 0 then [] else [modulesHelperName]).Sublist [modulesHelperName] := by
    split
    · exact List.nil_sublist _
    · exact List.Sublist.refl _
  rw [bridgeNames, List.append_assoc]
  exact all.sublist ((List.Sublist.refl _).append (helper.append (List.Sublist.refl _)))

/-- A bridge module imports each of its styles under its alias. -/
theorem imports_bridgeModule (source name : String) (styles : List String) (forwards : Bool) :
    (bridgeModule source name styles forwards).imports.map NamespaceImport.name =
      styleAliases styles.length := by
  have paired : ((styleAliases styles.length).zip styles).map Prod.fst =
      styleAliases styles.length :=
    List.map_fst_zip (by rw [styleAliases, List.length_map, List.length_range])
  refine Eq.trans ?_ paired
  exact List.map_map

/-- What the bridge module of a script says of the styles that it imports. Without styles it says
the same, with nothing in it. -/
theorem statements_bridgeModule (source name : String) (styles : List String) (forwards : Bool) :
    (bridgeModule source name styles forwards).statements =
      if styles = [] then [.exportConst name (.str ""), .exportConst modulesExport (.raw "\x7b\x7d")]
      else
        [.exportConst name (.join ((styleAliases styles.length).map fun module =>
          .member module name)),
          .exportConst modulesExport (.modulesOf (styleAliases styles.length))] := by
  cases styles with
  | nil => rfl
  | cons style styles =>
    have some : (styleAliases (styles.length + 1)).isEmpty = false := by
      rw [styleAliases, List.isEmpty_map, List.isEmpty_eq_false_iff, Ne, List.range_eq_nil]
      exact Nat.succ_ne_zero _
    rw [if_neg (List.cons_ne_nil _ _)]
    show [Stmt.exportConst name (if (styleAliases (styles.length + 1)).isEmpty then _ else _),
      Stmt.exportConst modulesExport (if (styleAliases (styles.length + 1)).isEmpty then _ else _)] =
      _
    rw [some, if_neg Bool.false_ne_true, if_neg Bool.false_ne_true]
    rfl

/-- What a bridge module binds, in the order of its text. -/
theorem binds_bridgeModule (source name : String) (styles : List String) (forwards : Bool) :
    (bridgeModule source name styles forwards).binds =
      bridgeNames styles.length ++ name :: furtherExports true false := by
  rw [Module.binds, imports_bridgeModule, bridgeNames, Module.needsHelper, statements_bridgeModule]
  by_cases none : styles = []
  · subst none
    rfl
  · have counted : styles.length ≠ 0 := fun zero => none (List.length_eq_zero_iff.mp zero)
    rw [if_neg none, if_neg counted]
    simp [Stmt.usesHelper, Expr.usesHelper, Stmt.binds, furtherExports]

/-- The modules whose members are listed are written into the text as they are. -/
theorem Expr.verbatimAll_members (modules : List String) (name : String) :
    Expr.verbatimAll (modules.map fun module => .member module name) = modules := by
  induction modules with
  | nil => rfl
  | cons module modules ih =>
    rw [List.map_cons, Expr.verbatimAll, ih, Expr.verbatim, List.singleton_append]

/-- Each statement of a bridge module can be found by its line. What it forwards are names of
imported styles, so they are laid out like those of its own. -/
theorem isLaid_bridgeModule {name : String} (valid : isIdentifier name = true) (source : String)
    (styles : List String) (forwards : Bool) :
    (bridgeModule source name styles forwards).IsLaid where
  imports := by
    intro item mem
    have listed : item.name ∈ styleAliases styles.length := by
      rw [← imports_bridgeModule source name styles forwards]
      exact List.mem_map_of_mem mem
    exact isNameChar_of_isIdentifier (valid_of_mem_styleAliases listed).1
  statements := by
    have named : isIdentifier modulesExport = true :=
      valid_of_mem_fixedNames _ (by simp [fixedNames])
    have lines : ∀ part ∈ styleAliases styles.length, '\n' ∉ part.toList := by
      intro part mem
      exact not_mem_of_isIdentifier (valid_of_mem_styleAliases mem).1 (by decide)
    intro stmt mem
    rw [statements_bridgeModule] at mem
    split at mem
    · simp only [List.mem_cons, List.not_mem_nil, or_false] at mem
      rcases mem with rfl | rfl
      · exact Stmt.isLaid_exportConst valid (by decide)
      · exact Stmt.isLaid_exportConst named (by simp [Expr.verbatim])
    · simp only [List.mem_cons, List.not_mem_nil, or_false] at mem
      rcases mem with rfl | rfl
      · refine Stmt.isLaid_exportConst valid ?_
        rw [Expr.verbatim, Expr.verbatimAll_members]
        exact lines
      · exact Stmt.isLaid_exportConst named lines
  defaultExport := by
    intro expr given
    cases given

/-! ## Bridge modules of styles -/

/-- The lines of an object of stable classes are indented, and the last one closes it. The names in
it are quoted, and a quoted text has no line break to end a line early. -/
theorem isBlock_objectText (map : Stable.StableMap) :
    isBlock (Stable.objectText map).toList = true := by
  let entries := map.map fun entry =>
    "\n  " ++ Text.quote entry.1 ++ ": " ++ Text.quote entry.2
  have entryBlock : ∀ entry ∈ entries, isBlock entry.toList = true := by
    intro entry mem
    obtain ⟨⟨name, stable⟩, _, rfl⟩ := List.mem_map.mp mem
    simp only [String.toList_append]
    refine isBlock_append (isBlock_append (isBlock_append (by decide) ?_) (by decide)) ?_
    · exact isBlock_of_not_mem (newline_not_mem_quote name)
    · exact isBlock_of_not_mem (newline_not_mem_quote stable)
  by_cases empty : map.isEmpty = true
  · rw [Stable.objectText, if_pos empty]
    decide
  · have joined : isBlock (String.intercalate "," entries).toList = true := by
      rw [Text.toList_intercalate]
      refine isBlock_joinWith (by decide) fun piece mem => ?_
      obtain ⟨entry, listed, rfl⟩ := List.mem_map.mp mem
      exact entryBlock entry listed
    rw [Stable.objectText, if_neg empty, String.toList_append, String.toList_append]
    exact isBlock_append (isBlock_append (by decide) joined) (by decide)

/-- The object of stable classes is a declaration of one name. What stands behind the name is
indented, so it declares nothing more. -/
theorem exists_literalText_eq (map : Stable.StableMap) (kind : Stable.ScriptKind) :
    ∃ rest, (Stable.literalText map kind).toList =
        "export const ".toList ++ (stableExport.toList ++ ' ' :: rest) ∧ isBlock rest = true := by
  have assertionBlock : isBlock (Stable.assertion kind).toList = true := by
    cases kind <;> decide
  refine ⟨"= Object.freeze(".toList ++ ((Stable.objectText map).toList ++
    ((Stable.assertion kind).toList ++ ");".toList)), ?_, ?_⟩
  · have lead : "export const stableSelectors = Object.freeze(".toList =
        "export const ".toList ++ (stableExport.toList ++ ' ' :: "= Object.freeze(".toList) := by
      simp [stableExport]
    rw [Stable.literalText_eq]
    simp only [String.toList_append, lead, List.append_assoc, List.cons_append]
  · exact isBlock_append (by decide)
      (isBlock_append (isBlock_objectText map) (isBlock_append assertionBlock (by decide)))

/-- The text of the stable selectors declares one name, in every kind of script. -/
theorem topNames_literalText (map : Stable.StableMap) (kind : Stable.ScriptKind) :
    topNames (Stable.literalText map kind) = [stableExport] := by
  obtain ⟨rest, written, block⟩ := exists_literalText_eq map kind
  have named : ∀ c ∈ stableExport.toList, isNameChar c = true :=
    isNameChar_of_isIdentifier (valid_of_mem_fixedNames _ (by simp [fixedNames]))
  rw [topNames, written, namesIn_declaration (by decide) named (by decide) (by decide) block,
    String.ofList_toList]

/-- What stands inside of it is indented, so none of it is taken for a declaration. -/
theorem isBlock_literalText (map : Stable.StableMap) (kind : Stable.ScriptKind) :
    isBlock (Stable.literalText map kind).toList = true := by
  obtain ⟨rest, written, block⟩ := exists_literalText_eq map kind
  have first : isBlock ("export const ".toList ++ (stableExport.toList ++ [' '])) = true := by
    refine isBlock_of_not_mem ?_
    simp [stableExport]
  have joined := isBlock_append first block
  rw [written]
  rwa [List.append_assoc, List.append_assoc, List.singleton_append] at joined

/-- The names that the bridge module of a style binds before the one that is given. -/
def styleNames : List String := [styleAlias, modulesHelperName]

/-- The names of a style of a bridge apart from that of the CSS. -/
theorem isDeclarable_styleNames (stable : Bool) :
    IsDeclarable (styleNames ++ furtherExports true stable) := by
  have fixed : (styleNames ++ [modulesExport, stableExport]).Sublist fixedNames := by decide
  refine isDeclarable_fixedNames.sublist (List.Sublist.trans ?_ fixed)
  exact (List.Sublist.refl _).append (furtherExports_sublist true stable)

/-- The bridge module of a style binds what the object of stable classes in it declares, after all
else. -/
theorem binds_bridgeStyleModule (request name css : String) (literal : Option String) :
    (bridgeStyleModule request name css literal).binds =
      styleNames ++ name :: modulesExport :: literal.toList.flatMap topNames := by
  cases literal <;> rfl

/-- Each statement of such a style can be found by its line, also behind the text of the stable
selectors. -/
theorem isLaid_bridgeStyleModule {name : String} (valid : isIdentifier name = true)
    (request css : String) {literal : Option String}
    (block : ∀ text ∈ literal, isBlock text.toList = true) :
    (bridgeStyleModule request name css literal).IsLaid where
  imports := by
    have known : isIdentifier styleAlias = true := valid_of_mem_fixedNames _ (by simp [fixedNames])
    intro item mem
    rw [List.mem_singleton.mp mem]
    exact isNameChar_of_isIdentifier known
  statements := by
    intro stmt mem
    simp only [bridgeStyleModule, List.mem_append, List.mem_cons, List.not_mem_nil, or_false,
      List.mem_map, Option.mem_toList] at mem
    rcases mem with (rfl | rfl) | ⟨text, given, rfl⟩
    · exact Stmt.isLaid_exportConst valid (fun _ mem => absurd mem List.not_mem_nil)
    · refine Stmt.isLaid_exportConst (valid_of_mem_fixedNames _ (by simp [fixedNames])) ?_
      intro part mem
      rw [List.mem_singleton.mp mem]
      exact newline_not_mem_of_fixedNames (by simp [fixedNames])
    · exact block text given
  defaultExport := by
    intro expr given
    cases given

end StyleGraph.Emit
