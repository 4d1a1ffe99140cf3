import StyleGraph.Css.Rule

/-!
# Changing selectors everywhere in a sheet

Two changes of selector lists one after the other change a sheet as they change each list. The lists
of a changed sheet are the changed lists. The lists of a sheet are those of all its style rules,
however deep a rule stands (`Sheet.mem_selectorLists_iff`).
-/

set_option autoImplicit false

namespace StyleGraph.Css

variable (f g : List Selector → List Selector)

mutual

/-- Selectors that are changed twice may be changed at once, by the recursion over nested rules. -/
theorem Rule.mapSelectors_mapSelectors : ∀ rule : Rule,
    (rule.mapSelectors g).mapSelectors f = rule.mapSelectors fun selectors => f (g selectors)
  | .style _ _ rules => by
    simp only [Rule.mapSelectors, Rule.mapSelectorsAll_mapSelectorsAll rules]
  | .group _ rules => by
    simp only [Rule.mapSelectors, Rule.mapSelectorsAll_mapSelectorsAll rules]
  | .declarations _ => rfl
  | .leaf _ => rfl

/-- The same for a list of rules. -/
theorem Rule.mapSelectorsAll_mapSelectorsAll : ∀ rules : List Rule,
    Rule.mapSelectorsAll f (Rule.mapSelectorsAll g rules) =
      Rule.mapSelectorsAll (fun selectors => f (g selectors)) rules
  | [] => rfl
  | rule :: rest => by
    simp only [Rule.mapSelectorsAll, Rule.mapSelectors_mapSelectors rule,
      Rule.mapSelectorsAll_mapSelectorsAll rest]

end

/-- The same for a sheet. -/
theorem Sheet.mapSelectors_mapSelectors (sheet : Sheet) :
    (sheet.mapSelectors g).mapSelectors f =
      sheet.mapSelectors fun selectors => f (g selectors) :=
  congrArg Sheet.mk (Rule.mapSelectorsAll_mapSelectorsAll f g sheet.rules)

mutual

/-- Selectors that are changed to themselves stay. -/
theorem Rule.mapSelectors_id : ∀ rule : Rule, rule.mapSelectors id = rule
  | .style _ _ rules => by rw [Rule.mapSelectors, Rule.mapSelectorsAll_id rules, id]
  | .group _ rules => by rw [Rule.mapSelectors, Rule.mapSelectorsAll_id rules]
  | .declarations _ => rfl
  | .leaf _ => rfl

/-- The same for a list of rules. -/
theorem Rule.mapSelectorsAll_id : ∀ rules : List Rule, Rule.mapSelectorsAll id rules = rules
  | [] => rfl
  | rule :: rest => by
    rw [Rule.mapSelectorsAll, Rule.mapSelectors_id rule, Rule.mapSelectorsAll_id rest]

end

/-- The same for a sheet. -/
theorem Sheet.mapSelectors_id (sheet : Sheet) : sheet.mapSelectors id = sheet :=
  congrArg Sheet.mk (Rule.mapSelectorsAll_id sheet.rules)

mutual

/-- The selector lists of a rule are changed one by one, and none is lost. -/
theorem Rule.selectorLists_mapSelectors : ∀ rule : Rule,
    (rule.mapSelectors f).selectorLists = rule.selectorLists.map f
  | .style _ _ rules => by
    simp only [Rule.mapSelectors, Rule.selectorLists, List.map_cons,
      Rule.selectorListsOfAll_mapSelectorsAll rules]
  | .group _ rules => by
    simp only [Rule.mapSelectors, Rule.selectorLists, Rule.selectorListsOfAll_mapSelectorsAll rules]
  | .declarations _ => rfl
  | .leaf _ => rfl

/-- The same for a list of rules. -/
theorem Rule.selectorListsOfAll_mapSelectorsAll : ∀ rules : List Rule,
    Rule.selectorListsOfAll (Rule.mapSelectorsAll f rules) =
      (Rule.selectorListsOfAll rules).map f
  | [] => rfl
  | rule :: rest => by
    simp only [Rule.mapSelectorsAll, Rule.selectorListsOfAll, List.map_append,
      Rule.selectorLists_mapSelectors rule, Rule.selectorListsOfAll_mapSelectorsAll rest]

end

/-- The selector lists of a changed sheet are those of the sheet, each of them changed. -/
theorem Sheet.selectorLists_mapSelectors (sheet : Sheet) :
    (sheet.mapSelectors f).selectorLists = sheet.selectorLists.map f :=
  Rule.selectorListsOfAll_mapSelectorsAll f sheet.rules

/-! ## Style rules at any depth -/

/-- A rule is a style rule with the selectors, or has one inside it. -/
inductive Rule.Styles (selectors : List Selector) : Rule → Prop
  | here (block : Block) (rules : List Rule) : Rule.Styles selectors (.style selectors block rules)
  | nested {rule : Rule} {rules : List Rule} (outer : List Selector) (block : Block)
    (mem : rule ∈ rules) (styles : Rule.Styles selectors rule) :
    Rule.Styles selectors (.style outer block rules)
  | grouped {rule : Rule} {rules : List Rule} (header : Header) (mem : rule ∈ rules)
    (styles : Rule.Styles selectors rule) : Rule.Styles selectors (.group header rules)

/-- A selector list of several rules is one of one of them. -/
theorem Rule.mem_selectorListsOfAll {selectors : List Selector} {rules : List Rule} :
    selectors ∈ Rule.selectorListsOfAll rules ↔ ∃ rule ∈ rules, selectors ∈ rule.selectorLists := by
  induction rules with
  | nil => simp [Rule.selectorListsOfAll]
  | cons rule rest ih => simp [Rule.selectorListsOfAll, ih]

mutual

/-- A selector list that is found in a rule belongs to a style rule in it, at some depth. -/
theorem Rule.styles_of_mem {selectors : List Selector} : ∀ rule : Rule,
    selectors ∈ rule.selectorLists → Rule.Styles selectors rule
  | .style outer block rules, mem => by
    rw [Rule.selectorLists] at mem
    rcases List.mem_cons.mp mem with rfl | inner
    · exact .here block rules
    · obtain ⟨rule, listed, styles⟩ := Rule.exists_styles_of_mem rules inner
      exact .nested outer block listed styles
  | .group header rules, mem => by
    rw [Rule.selectorLists] at mem
    obtain ⟨rule, listed, styles⟩ := Rule.exists_styles_of_mem rules mem
    exact .grouped header listed styles
  | .declarations _, mem => by cases mem
  | .leaf _, mem => by cases mem

/-- The same for a list of rules. -/
theorem Rule.exists_styles_of_mem {selectors : List Selector} : ∀ rules : List Rule,
    selectors ∈ Rule.selectorListsOfAll rules → ∃ rule ∈ rules, Rule.Styles selectors rule
  | [], mem => by cases mem
  | rule :: rest, mem => by
    rw [Rule.selectorListsOfAll] at mem
    rcases List.mem_append.mp mem with here | later
    · exact ⟨rule, List.mem_cons_self, Rule.styles_of_mem rule here⟩
    · obtain ⟨other, listed, styles⟩ := Rule.exists_styles_of_mem rest later
      exact ⟨other, List.mem_cons_of_mem _ listed, styles⟩

end

/-- The selector list of a style rule is found at whatever depth the rule stands. -/
theorem Rule.Styles.mem_selectorLists {selectors : List Selector} {rule : Rule}
    (styles : Rule.Styles selectors rule) : selectors ∈ rule.selectorLists := by
  induction styles with
  | here block rules => exact List.mem_cons_self
  | nested outer block mem _ ih =>
    exact List.mem_cons_of_mem _ (Rule.mem_selectorListsOfAll.mpr ⟨_, mem, ih⟩)
  | grouped header mem _ ih => exact Rule.mem_selectorListsOfAll.mpr ⟨_, mem, ih⟩

/-- **The selector lists of a sheet are those of its style rules**, at any depth. -/
theorem Sheet.mem_selectorLists_iff {selectors : List Selector} {sheet : Sheet} :
    selectors ∈ sheet.selectorLists ↔ ∃ rule ∈ sheet.rules, Rule.Styles selectors rule := by
  constructor
  · exact Rule.exists_styles_of_mem sheet.rules
  · rintro ⟨rule, mem, styles⟩
    exact Rule.mem_selectorListsOfAll.mpr ⟨rule, mem, styles.mem_selectorLists⟩

end StyleGraph.Css
