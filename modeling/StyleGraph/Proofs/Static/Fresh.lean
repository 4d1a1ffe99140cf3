import StyleGraph.Proofs.Path.Below
import StyleGraph.Proofs.Static.Minting
import StyleGraph.Proofs.Static.Resolution

/-!
# Texts that are hashed

The text that is hashed for a name is the path of the module inside the project with the running
number right behind it, and nothing between them. It tells both apart all the same: the path ends in
the extension of a script, so the digits at the end are the number. So no text is hashed twice, in
one evaluation or in those of two modules of a project, and names are the same only if the hashes of
different texts begin with the same eight digits (`generated_fresh`).

The names are those that the evaluation itself lists while it generates them. So this holds also of
an evaluation that stops with a fault, and of all names that were generated up to it.
-/

set_option autoImplicit false

namespace StyleGraph.Static

open StyleGraph.Path (clean stripBase?)

/-! ## Numbers behind a text -/

/-- A number is written with its decimal digits. -/
theorem toList_toString (n : Nat) : (toString n).toList = Nat.toDigits 10 n := by
  rw [Nat.toString_eq_repr, Nat.toList_repr]

/-- It has digits only, so that no number reaches over what stands around it in the hashed text. -/
theorem isDigit_of_mem_toString {n : Nat} {c : Char} (mem : c ∈ (toString n).toList) :
    c.isDigit = true := by
  rw [toList_toString] at mem
  exact Nat.isDigit_of_mem_toDigits (by decide) (by decide) mem

/-- Different numbers are written differently. -/
theorem toString_inj {one other : Nat} (same : toString one = toString other) : one = other := by
  have digits : Nat.toDigits 10 one = Nat.toDigits 10 other := by
    rw [← toList_toString, ← toList_toString, same]
  have read := congrArg (fun cs => Nat.ofDigitChars 10 cs 0) digits
  simpa only [Nat.ofDigitChars_ten_toDigits] using read

/-- The last character, if there is one, is no digit. -/
def EndsPlain (cs : List Char) : Prop := ∀ c ∈ cs.getLast?, c.isDigit = false

/-- Digits alone do not lead from any text to one that ends in no digit. -/
theorem EndsPlain.eq_nil {front digits : List Char} (ends : EndsPlain (front ++ digits))
    (isDigits : ∀ c ∈ digits, c.isDigit = true) : digits = [] := by
  cases digits using List.reverseRecOn with
  | nil => rfl
  | append_singleton before c _ =>
    have plain := ends c (by rw [← List.append_assoc, List.getLast?_concat]; rfl)
    rw [isDigits c (by simp)] at plain
    cases plain

/-- **Text and number are known** from the two together, if the text does not end in a digit. -/
theorem append_toString_inj {front other : String} {one two : Nat}
    (ends : EndsPlain front.toList) (otherEnds : EndsPlain other.toList)
    (same : front ++ toString one = other ++ toString two) : front = other ∧ one = two := by
  have chars : front.toList ++ (toString one).toList = other.toList ++ (toString two).toList := by
    rw [← String.toList_append, same, String.toList_append]
  -- one text is the other one and digits, so the two are the same
  have front_eq : front.toList = other.toList := by
    rcases List.append_eq_append_iff.mp chars with ⟨more, longer, digits⟩ | ⟨more, longer, digits⟩
    · rw [longer] at otherEnds
      have none := otherEnds.eq_nil fun c mem =>
        isDigit_of_mem_toString (digits ▸ List.mem_append_left _ mem)
      rw [longer, none, List.append_nil]
    · rw [longer] at ends
      have none := ends.eq_nil fun c mem =>
        isDigit_of_mem_toString (digits ▸ List.mem_append_left _ mem)
      rw [longer, none, List.append_nil]
  rw [front_eq, List.append_cancel_left_eq] at chars
  exact ⟨String.toList_inj.mp front_eq, toString_inj (String.toList_inj.mp chars)⟩

/-! ## The path that is hashed -/

/-- The name of a CSS-in-TS file ends in a letter. So a number behind it can be told from the name.
-/
theorem endsPlain_of_isVanillaName {name : String}
    (vanilla : Dialect.isVanillaName name = true) (front : List Char) :
    EndsPlain (front ++ name.toList) := by
  have letters : ∀ extension ∈ scriptExtensions,
      ('.' :: extension.toList).getLast?.all (fun c => !c.isDigit) = true := by
    decide
  obtain ⟨extension, listed, stem, written⟩ := isVanillaName_iff.mp vanilla
  intro c last
  rw [written, ← List.append_assoc, List.getLast?_append_of_ne_nil _ (List.cons_ne_nil _ _),
    Option.mem_def] at last
  have letter := letters extension listed
  rw [last] at letter
  simpa using letter

/-- A module of a project, at a path that is written with slashes only. -/
structure InProject (project path : String) : Prop where
  cleanProject : clean project = project
  cleanPath : clean path = path
  isModule : isModulePath path = true
  slashed : '\\' ∉ path.toList

namespace InProject

variable {project path other : String}

/-- A file of the project is hashed under its path from the project's directory, or under the whole
path. -/
theorem relative_eq (module : InProject project path) :
    (Naming.ofPath path project).relative = (stripBase? project path).getD path := by
  have absent : '\\' ∉ ((stripBase? project path).getD path).toList := by
    cases found : stripBase? project path with
    | none => exact module.slashed
    | some inside =>
      exact Path.not_mem_of_stripBase? (by decide) module.slashed
        (Path.parts_ne_nil_of_clean module.cleanProject) found
  have kept : ∀ c ∈ ((stripBase? project path).getD path).toList,
      (if c = '\\' then '/' else c) = c := by
    intro c mem
    refine if_neg ?_
    rintro rfl
    exact absent mem
  simp only [Naming.ofPath, List.map_congr_left kept, List.map_id', String.ofList_toList]

/-- The path that is hashed does not end in a digit. It is the whole path, or what is left of it
inside the project, which may be nothing. -/
theorem endsPlain_relative (module : InProject project path) :
    EndsPlain (Naming.ofPath path project).relative.toList := by
  obtain ⟨name, file, vanilla⟩ : ∃ name, Path.fileName? path = some name ∧
      Dialect.isVanillaName name = true := by
    simpa only [isModulePath, Option.any_eq_true] using module.isModule
  rw [module.relative_eq]
  cases found : stripBase? project path with
  | none =>
    obtain ⟨front, written⟩ := Path.exists_clean_eq_append file
    rw [module.cleanPath] at written
    rw [Option.getD_none, written]
    exact endsPlain_of_isVanillaName vanilla front
  | some inside =>
    rw [Option.getD_some]
    rcases Path.ends_of_stripBase? (Path.parts_ne_nil_of_clean module.cleanProject) file found with
      rfl | ⟨front, written⟩
    · intro c last
      cases last
    · rw [written]
      exact endsPlain_of_isVanillaName vanilla front

/-- **The path that is hashed tells modules apart**, if both are in the project or both outside. A
path outside the project is hashed whole, and one inside is what is left below the project. -/
theorem eq_of_relative (module : InProject project path) (otherModule : InProject project other)
    (alike : (stripBase? project path).isSome = (stripBase? project other).isSome)
    (same : (Naming.ofPath path project).relative = (Naming.ofPath other project).relative) :
    path = other := by
  rw [module.relative_eq, otherModule.relative_eq] at same
  cases found : stripBase? project path with
  | none =>
    cases otherFound : stripBase? project other with
    | none => simpa only [found, otherFound, Option.getD_none] using same
    | some _ => rw [found, otherFound] at alike; cases alike
  | some inside =>
    cases otherFound : stripBase? project other with
    | none => rw [found, otherFound] at alike; cases alike
    | some otherInside =>
      simp only [found, otherFound, Option.getD_some] at same
      subst same
      exact Path.eq_of_stripBase? module.cleanProject module.cleanPath otherModule.cleanPath found
        otherFound

end InProject

/-! ## Names -/

/-- A generated name, by its running number and what it was generated for. -/
structure Minted where
  ordinal : Nat
  binding : Option String
  deriving DecidableEq, Repr

namespace Minted

/-- The text that is hashed for a name. -/
def input (naming : Naming) (minted : Minted) : String := naming.hashed minted.ordinal

/-- The name itself. -/
def name (naming : Naming) (minted : Minted) : String := naming.name minted.ordinal minted.binding

/-- The names that an evaluation has generated, first to last, with the running numbers from zero
on. -/
structure Lists (naming : Naming) (minted : List Minted) (state : State) : Prop where
  ordinals : minted.map ordinal = List.range minted.length
  names : state.names = minted.map (name naming)

/-- Two names are made from different texts, so they are the same only if the hashes of these texts
begin with the same digits. -/
structure Apart (naming : Naming) (minted : Minted) (other : Naming) (next : Minted) : Prop where
  input : minted.input naming ≠ next.input other
  collide : minted.name naming = next.name other →
    naming.digits minted.ordinal = other.digits next.ordinal

/-- Names hashed from different texts are apart as long as the hash keeps these texts apart. -/
theorem Apart.of_input {naming other : Naming} {minted next : Minted}
    (differs : minted.input naming ≠ next.input other) : Apart naming minted other next :=
  ⟨differs, Naming.digits_of_name⟩

/-- Names for bindings that are numbered from zero on. -/
theorem lists_of_numbered {naming : Naming} {bindings : List (Option String)} {state : State}
    (numbered : state.names = naming.numbered 0 bindings) :
    Lists naming (bindings.zipIdx.map fun entry => ⟨entry.2, entry.1⟩) state := by
  constructor
  · rw [List.map_map, List.length_map, List.length_zipIdx, List.range_eq_range']
    exact List.zipIdx_map_snd 0 bindings
  · rw [numbered, List.map_map]
    rfl

/-- In one evaluation no text is hashed twice. -/
theorem Lists.pairwise_apart {naming : Naming} {minted : List Minted} {state : State}
    (lists : Lists naming minted state) : minted.Pairwise fun one next =>
      one.Apart naming naming next := by
  have distinct : (minted.map ordinal).Nodup := by
    rw [lists.ordinals]
    exact List.nodup_range
  refine (List.pairwise_map.mp distinct).imp fun differs => .of_input fun same => differs ?_
  exact toString_inj (String.append_right_inj _ |>.mp same)

end Minted

/-- The names that the evaluation of a module has generated when it ends, however it ends. -/
theorem exists_lists_moduleState (source path project : String) (environment : Environment) :
    ∃ minted, Minted.Lists (.ofPath path project) minted
      (moduleState source path project environment) := by
  obtain ⟨acts, ends⟩ := exists_acts_moduleState source path project environment
  have numbered : (moduleState source path project environment).names =
      (Naming.ofPath path project).numbered 0 (acts.filterMap Act.minted?) := by
    rw [ends, Act.names_applyAll]
    rfl
  exact ⟨_, Minted.lists_of_numbered numbered⟩

/-- A call only adds names, with the numbers that come next, also if it stops with a fault. -/
theorem exists_names_callApi (naming : Naming) (binding : Option String) (api : Api)
    (arguments : List Value) (state : State) :
    ∃ bindings, (Eval.finalState (Eval.callApi naming binding api arguments) state).names =
      state.names ++ naming.numbered state.ordinal bindings := by
  obtain ⟨acts, ends⟩ : ∃ acts, Eval.finalState (Eval.callApi naming binding api arguments) state =
      Act.applyAll naming state acts := acts_callApi api arguments state
  exact ⟨acts.filterMap Act.minted?, ends ▸ Act.names_applyAll naming state acts⟩

/-- **No text is hashed twice.** What is generated is listed: a name that is generated is the next
one of the list, a call leaves the names before it in the list, and shows those that it adds in what
it returns. However the evaluation of a module ends, the names that are listed then have the running
numbers from zero on, and are made from different texts. So are those of two modules at different
paths that are both in the project or both outside it. Two names are the same only if the hashes of
different texts begin with the same eight digits. -/
theorem generated_fresh :
    (∀ naming binding (state : State),
      Eval.mint naming binding state =
        .ok (Minted.name naming ⟨state.ordinal, binding⟩,
          { state with names := state.names ++ [Minted.name naming ⟨state.ordinal, binding⟩] })) ∧
    (∀ naming binding api arguments state,
      (∃ bindings, (Eval.finalState (Eval.callApi naming binding api arguments) state).names =
        state.names ++ naming.numbered state.ordinal bindings) ∧
      ∀ value final, Eval.callApi naming binding api arguments state = .ok (value, final) →
        Mints naming state (api.bindings binding arguments) value.Shows final) ∧
    (∀ source path project environment, ∃ minted,
      Minted.Lists (.ofPath path project) minted (moduleState source path project environment) ∧
      minted.Pairwise fun one next =>
        one.Apart (.ofPath path project) (.ofPath path project) next) ∧
    ∀ project path other, InProject project path → InProject project other → path ≠ other →
      (stripBase? project path).isSome = (stripBase? project other).isSome →
      ∀ source environment minted,
        Minted.Lists (.ofPath path project) minted (moduleState source path project environment) →
      ∀ otherSource others more,
        Minted.Lists (.ofPath other project) more (moduleState otherSource other project others) →
      ∀ one ∈ minted, ∀ next ∈ more, one.Apart (.ofPath path project) (.ofPath other project) next := by
  refine ⟨fun _ _ _ => rfl, fun naming binding api arguments state => ?_,
    fun source path project environment => ?_, ?_⟩
  · exact ⟨exists_names_callApi naming binding api arguments state, fun _ _ => callApi_mints⟩
  · obtain ⟨minted, lists⟩ := exists_lists_moduleState source path project environment
    exact ⟨minted, lists, lists.pairwise_apart⟩
  · intro project path other module otherModule differs alike _ _ minted _ _ _ more _ one _ next _
    refine .of_input fun same => differs (module.eq_of_relative otherModule alike ?_)
    exact (append_toString_inj module.endsPlain_relative otherModule.endsPlain_relative same).1

/-- A style. -/
def boxSource : String := "export const box = style({});"

/-- Two modules with the same file name and the same style hash different texts for it, and their
names differ in the digits. -/
theorem generated_fresh_box :
    InProject "/app" "/app/a/card.css.ts" ∧ InProject "/app" "/app/b/card.css.ts" ∧
    (moduleState boxSource "/app/a/card.css.ts" "/app" []).names = ["card_box__7c52b011"] ∧
    (moduleState boxSource "/app/b/card.css.ts" "/app" []).names = ["card_box__944d6e37"] ∧
    Minted.Apart (.ofPath "/app/a/card.css.ts" "/app") ⟨0, some "box"⟩
      (.ofPath "/app/b/card.css.ts" "/app") ⟨0, some "box"⟩ := by
  have module : InProject "/app" "/app/a/card.css.ts" :=
    ⟨by decide +kernel, by decide +kernel, by decide +kernel, by decide⟩
  have otherModule : InProject "/app" "/app/b/card.css.ts" :=
    ⟨by decide +kernel, by decide +kernel, by decide +kernel, by decide⟩
  have chars : boxSource.toList = _ := String.toList_ofList
  have names :
      (moduleState boxSource "/app/a/card.css.ts" "/app" []).names = ["card_box__7c52b011"] ∧
      (moduleState boxSource "/app/b/card.css.ts" "/app" []).names = ["card_box__944d6e37"] := by
    rewrite [moduleState, moduleState, Script.read?, Script.read?, chars]
    decide +kernel
  have made :
      Minted.name (.ofPath "/app/a/card.css.ts" "/app") ⟨0, some "box"⟩ = "card_box__7c52b011" ∧
      Minted.name (.ofPath "/app/b/card.css.ts" "/app") ⟨0, some "box"⟩ =
        "card_box__944d6e37" := by
    decide +kernel
  have lists : Minted.Lists (.ofPath "/app/a/card.css.ts" "/app") [⟨0, some "box"⟩]
      (moduleState boxSource "/app/a/card.css.ts" "/app" []) :=
    ⟨rfl, by rw [names.1, List.map_singleton, made.1]⟩
  have otherLists : Minted.Lists (.ofPath "/app/b/card.css.ts" "/app") [⟨0, some "box"⟩]
      (moduleState boxSource "/app/b/card.css.ts" "/app" []) :=
    ⟨rfl, by rw [names.2, List.map_singleton, made.2]⟩
  exact ⟨module, otherModule, names.1, names.2,
    generated_fresh.2.2.2 _ _ _ module otherModule (by decide) (by decide +kernel) boxSource [] _
      lists boxSource [] _ otherLists _ List.mem_cons_self _ List.mem_cons_self⟩

/-- A style, a contract with one variable, and a theme that lacks its token. -/
def brokenSource : String :=
  "const a = style({});\nconst b = createThemeContract({ c: null });\n" ++
    "createTheme(b, {});"

/-- The evaluation fails, and has generated two names. -/
example : (evaluateModule brokenSource "/app/a.css.ts" "/app" []).toBool = false ∧
    (moduleState brokenSource "/app/a.css.ts" "/app" []).names =
      ["a_a__b4c01d58", "a_b_c__a093c587"] := by
  have chars : brokenSource.toList = _ := Text.toList_ofList_append _ _
  rewrite [evaluateModule, moduleState, Script.read?, chars]
  decide +kernel

end StyleGraph.Static
