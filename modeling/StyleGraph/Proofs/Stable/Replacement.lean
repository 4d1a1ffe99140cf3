import StyleGraph.Proofs.Css.Selector.Places
import StyleGraph.Proofs.Stable.Rewrite

/-!
# Which classes a stable variant replaces

Stable variants are made of the selectors inside lists, `::slotted(…)` and `:host(…)`, and of no
others. At every place that such ways lead to, a variant has the stable class of a class that is
accepted, and otherwise what the selector has there (`rewriteSelector_replaces`). Places inside
`:nth-child(… of …)` are not among them (`rewriteSelector_lastAmong`).
-/

set_option autoImplicit false

namespace StyleGraph.Stable

open Css

/-- Whether stable variants are made of the selectors inside a component. -/
def isEntered : Component → Bool
  | .list _ _ => true
  | .wrap .slotted _ => true
  | .wrap .host _ => true
  | _ => false

namespace Scheme

variable {scheme : Scheme}

/-! ## One component -/

/-- A list is rewritten selector by selector. -/
theorem rewriteList_fst (selectors : List Selector) :
    (scheme.rewriteList selectors).1 =
      selectors.map fun selector => (scheme.rewriteSelector selector).1 := by
  induction selectors with
  | nil => rfl
  | cons selector rest ih => simp only [rewriteList, ih, List.map_cons]

/-- It counts as changed if one of them is. -/
theorem rewriteList_snd (selectors : List Selector) :
    (scheme.rewriteList selectors).2 =
      selectors.any fun selector => (scheme.rewriteSelector selector).2 := by
  induction selectors with
  | nil => rfl
  | cons selector rest ih => simp only [rewriteList, ih, List.any_cons]

/-- The same for the components of a selector. -/
theorem rewriteComponents_snd (components : List Component) :
    (scheme.rewriteComponents components).2 =
      components.any fun component => (scheme.rewriteComponent component).2 := by
  induction components with
  | nil => rfl
  | cons component rest ih => simp only [rewriteComponents, ih, List.any_cons]

/-- A class the filters accept becomes its stable form, and any other stays. -/
theorem rewriteComponent_class (name : String) :
    (scheme.rewriteComponent (.class name)).1 =
      if scheme.accepts name then scheme.component (className name scheme.space)
      else .class name := by
  unfold rewriteComponent stableFor?
  cases scheme.accepts name <;> rfl

/-- A component that is neither a class nor entered is left alone, with all that stands in it. -/
theorem rewriteComponent_of_closed {component : Component} (unnamed : component.class? = none)
    (closed : isEntered component = false) :
    scheme.rewriteComponent component = (component, false) := by
  unfold rewriteComponent
  split
  · cases unnamed
  · cases closed
  · cases closed
  · cases closed
  · rfl

/-- A component that is entered gets the variants of the selectors inside it, and changes in nothing
else. -/
theorem rewriteComponent_of_entered (scheme : Scheme) {component : Component}
    (entered : isEntered component = true) :
    (scheme.rewriteComponent component).1.outline = component.outline ∧
      (scheme.rewriteComponent component).1.inside =
        component.inside.map (fun inner => (scheme.rewriteSelector inner).1) ∧
      (scheme.rewriteComponent component).2 =
        component.inside.any fun inner => (scheme.rewriteSelector inner).2 := by
  unfold rewriteComponent
  split
  · cases entered
  next kind selectors => exact ⟨rfl, rewriteList_fst selectors, rewriteList_snd selectors⟩
  next inner => exact ⟨rfl, rfl, by simp [Component.inside]⟩
  next inner => exact ⟨rfl, rfl, by simp [Component.inside]⟩
  next list slotted host =>
    cases component with
    | list kind selectors => exact absurd rfl (list kind selectors)
    | wrap kind inner =>
      cases kind with
      | slotted => exact absurd rfl (slotted inner)
      | host => exact absurd rfl (host inner)
      | _ => cases entered
    | _ => cases entered

/-- Just those components of a variant are entered that are entered in its selector. -/
theorem isEntered_rewriteComponent (component : Component) :
    isEntered (scheme.rewriteComponent component).1 = isEntered component := by
  unfold rewriteComponent
  split
  · split
    · unfold Scheme.component
      split <;> rfl
    · rfl
  all_goals rfl

/-! ## Places -/

/-- What a variant has at a place that is entered is made of what the selector has there. By
induction on the way: a variant is entered where the selector is, and has as much inside. -/
theorem at?_rewriteSelector (way : List (Nat × Nat)) (index : Nat) (selector : Selector) :
    (scheme.rewriteSelector selector).1.at? isEntered way index =
      (selector.at? isEntered way index).map fun component =>
        (scheme.rewriteComponent component).1 := by
  induction way generalizing selector with
  | nil => simp only [Selector.at?, components_rewriteSelector, List.getElem?_map]
  | cons step way ih =>
    obtain ⟨outer, choice⟩ := step
    simp only [Selector.at?, components_rewriteSelector, List.getElem?_map]
    cases selector.components[outer]? with
    | none => rfl
    | some component =>
      cases entered : isEntered component with
      | false => simp [Option.filter_some, isEntered_rewriteComponent, entered]
      | true =>
        obtain ⟨_, inside, _⟩ := rewriteComponent_of_entered scheme entered
        simp only [Option.map_some, Option.filter_some, isEntered_rewriteComponent, entered,
          if_true, Option.bind_some, inside, List.getElem?_map]
        cases component.inside[choice]? with
        | none => rfl
        | some inner => exact ih inner

/-- A selector changes if one of its components does. -/
theorem changed_iff {selector : Selector} :
    (scheme.rewriteSelector selector).2 = true ↔
      ∃ component ∈ selector.components, (scheme.rewriteComponent component).2 = true := by
  obtain ⟨components, flags⟩ := selector
  simp only [rewriteSelector, rewriteComponents_snd, List.any_eq_true, Selector.components]

/-- A component changes if it is an accepted class or a selector inside it changes, provided that it
is entered. -/
theorem changed_component_iff {component : Component} :
    (scheme.rewriteComponent component).2 = true ↔
      (∃ name, component = .class name ∧ scheme.accepts name = true) ∨
        isEntered component = true ∧
          ∃ inner ∈ component.inside, (scheme.rewriteSelector inner).2 = true := by
  cases entered : isEntered component with
  | true =>
    obtain ⟨_, _, changed⟩ := rewriteComponent_of_entered scheme entered
    rw [changed, List.any_eq_true]
    refine ⟨fun inside => .inr ⟨rfl, inside⟩, ?_⟩
    rintro (⟨name, rfl, _⟩ | ⟨_, inside⟩)
    · cases entered
    · exact inside
  | false =>
    simp only [Bool.false_eq_true, false_and, or_false]
    cases named : component.class? with
    | none =>
      rw [rewriteComponent_of_closed named entered]
      simp only [Bool.false_eq_true, false_iff, not_exists, not_and]
      rintro name rfl
      cases named
    | some name =>
      cases component with
      | «class» name =>
        unfold rewriteComponent stableFor?
        cases accepted : scheme.accepts name <;> simp [accepted]
      | _ => cases named

/-- **A selector changes just when an accepted class is at a place that is entered.** The proof goes
down the selectors along the way to the class; both sides ask at each step whether the list is
entered. -/
theorem changed_iff_exists_at? (selector : Selector) :
    (scheme.rewriteSelector selector).2 = true ↔
      ∃ way index name, selector.at? isEntered way index = some (.class name) ∧
        scheme.accepts name = true := by
  induction selector using Selector.inside_induction with
  | step selector ih =>
    rw [changed_iff]
    constructor
    · rintro ⟨component, listed, changed⟩
      rcases changed_component_iff.mp changed with
        ⟨name, rfl, accepted⟩ | ⟨entered, inner, mem, changed⟩
      · obtain ⟨index, there⟩ := Selector.exists_at?_of_mem listed
        exact ⟨[], index, name, there _, accepted⟩
      · obtain ⟨way, index, name, there, accepted⟩ := (ih component listed inner mem).mp changed
        obtain ⟨step, stepped⟩ := Selector.exists_step listed mem
        refine ⟨step :: way, index, name, ?_, accepted⟩
        rw [stepped, if_pos entered, there]
    · rintro ⟨way, index, name, there, accepted⟩
      rcases Selector.at?_cases there with
        listed | ⟨component, listed, entered, inner, mem, way, index, there⟩
      · exact ⟨_, listed, changed_component_iff.mpr (.inl ⟨name, rfl, accepted⟩)⟩
      · refine ⟨component, listed, changed_component_iff.mpr (.inr ⟨entered, inner, mem, ?_⟩)⟩
        exact (ih component listed inner mem).mpr ⟨way, index, name, there, accepted⟩

/-- What becomes of a component, apart from the selectors inside it if it is entered: an accepted
class becomes its stable component, and everything else stays. -/
def Replaces (scheme : Scheme) (before after : Component) : Prop :=
  match before with
  | .class name =>
    after = if scheme.accepts name then scheme.component (className name scheme.space)
      else .class name
  | before =>
    if isEntered before then
      after.outline = before.outline ∧ after.inside.length = before.inside.length
    else after = before

/-- What becomes of each component is what the relation of the statement allows. It is proved along
the recursion, whose lists call it again on smaller selectors. -/
theorem replaces_rewriteComponent (component : Component) :
    scheme.Replaces component (scheme.rewriteComponent component).1 := by
  unfold Replaces
  split
  next name => exact rewriteComponent_class name
  next other =>
    split
    next entered =>
      obtain ⟨outline, inside, _⟩ := rewriteComponent_of_entered scheme entered
      exact ⟨outline, by rw [inside, List.length_map]⟩
    next closed =>
      rw [rewriteComponent_of_closed ?_ (eq_false_of_ne_true closed)]
      cases component with
      | «class» name => exact absurd rfl (other name)
      | _ => rfl

end Scheme

/-! ## The theorem -/

/-- **A variant replaces just the accepted classes at places that are entered.** At each such place
it has the stable component of an accepted class and otherwise what the selector has; there is a
variant just when there is such a class, and without one the selector is returned as it was. -/
theorem rewriteSelector_replaces (scheme : Scheme) (selector : Selector) :
    (∀ way index, Option.Rel scheme.Replaces (selector.at? isEntered way index)
      ((scheme.rewriteSelector selector).1.at? isEntered way index)) ∧
    ((scheme.rewriteSelector selector).2 = true ↔
      ∃ way index name, selector.at? isEntered way index = some (.class name) ∧
        scheme.accepts name = true) ∧
    ((scheme.rewriteSelector selector).2 = false →
      (scheme.rewriteSelector selector).1 = selector) := by
  refine ⟨fun way index => ?_, Scheme.changed_iff_exists_at? selector,
    Scheme.rewriteSelector_of_unchanged⟩
  rw [Scheme.at?_rewriteSelector]
  cases selector.at? isEntered way index with
  | none => exact .none
  | some component => exact .some (Scheme.replaces_rewriteComponent component)

/-- The last child of class `a`. -/
def lastAmong : Selector :=
  .mk [.nthOf ⟨.lastChild, true, 0, 1⟩ [.mk [.class "a"] {}]] {}

/-- **Inside `:nth-last-child(… of …)` no class is replaced**, though it is accepted. -/
theorem rewriteSelector_lastAmong :
    (∃ way index, lastAmong.at? (fun _ => true) way index = some (.class "a")) ∧
      (Scheme.ofSpace "knighted").accepts "a" = true ∧
      (Scheme.ofSpace "knighted").rewriteSelector lastAmong = (lastAmong, false) :=
  ⟨⟨[(0, 0)], 0, rfl⟩, by decide +kernel, rfl⟩

end StyleGraph.Stable
