import StyleGraph.Css.Selector.Basic

/-!
# Places in a selector

A place is the way to a component of a selector: at each step a component, by its position, and one
of the selectors inside it, and at last the position of the component itself. Which components a
way may lead through is given as `enters`.

What holds of a selector as soon as it holds of the selectors inside its components holds of every
selector (`Selector.inside_induction`).
-/

set_option autoImplicit false

namespace StyleGraph.Css

/-- The selectors that stand inside a component. -/
def Component.inside : Component → List Selector
  | .list _ selectors => selectors
  | .wrap _ inner => [inner]
  | .nthOf _ selectors => selectors
  | _ => []

/-- A component without the selectors inside it. -/
def Component.outline : Component → Component
  | .list kind _ => .list kind []
  | .wrap kind _ => .wrap kind default
  | .nthOf position _ => .nthOf position []
  | component => component

/-- A selector inside a component is smaller than it, which is why walks over selectors end. -/
theorem Component.sizeOf_lt_of_mem_inside {component : Component} {inner : Selector}
    (mem : inner ∈ component.inside) : sizeOf inner < sizeOf component := by
  cases component with
  | list kind selectors =>
    have smaller : sizeOf inner < sizeOf selectors := List.sizeOf_lt_of_mem mem
    simp only [Component.list.sizeOf_spec]
    omega
  | wrap kind selector =>
    rw [List.mem_singleton.mp mem]
    simp only [Component.wrap.sizeOf_spec]
    omega
  | nthOf position selectors =>
    have smaller : sizeOf inner < sizeOf selectors := List.sizeOf_lt_of_mem mem
    simp only [Component.nthOf.sizeOf_spec]
    omega
  | _ => cases mem

namespace Selector

/-- So is a component of a selector. -/
theorem sizeOf_lt_of_mem_components {selector : Selector} {component : Component}
    (mem : component ∈ selector.components) : sizeOf component < sizeOf selector := by
  obtain ⟨components, flags⟩ := selector
  have smaller : sizeOf component < sizeOf components := List.sizeOf_lt_of_mem mem
  simp only [Selector.mk.sizeOf_spec]
  omega

/-- **Induction over the selectors inside a selector.** -/
theorem inside_induction {motive : Selector → Prop}
    (step : ∀ selector : Selector, (∀ component ∈ selector.components,
      ∀ inner ∈ component.inside, motive inner) → motive selector)
    (selector : Selector) : motive selector :=
  step selector fun _ listed inner mem =>
    have := sizeOf_lt_of_mem_components listed
    have := Component.sizeOf_lt_of_mem_inside mem
    inside_induction step inner
termination_by sizeOf selector

/-! ## Components at places -/

/-- The component at a place, if the way there leads only through components that are entered. -/
def at? (enters : Component → Bool) : List (Nat × Nat) → Nat → Selector → Option Component
  | [], index, selector => selector.components[index]?
  | (outer, choice) :: way, index, selector =>
    (selector.components[outer]?.filter enters).bind fun component =>
      component.inside[choice]?.bind (at? enters way index)

/-- A class stands somewhere in a selector, at any depth. -/
def HasClass (selector : Selector) (name : String) : Prop :=
  ∃ way index, selector.at? (fun _ => true) way index = some (.class name)

variable {enters : Component → Bool} {selector inner : Selector} {component found : Component}
  {way : List (Nat × Nat)} {index : Nat}

/-- A step leads from a selector to each selector inside it. -/
theorem exists_step (listed : component ∈ selector.components) (mem : inner ∈ component.inside) :
    ∃ step, ∀ enters way index, selector.at? enters (step :: way) index =
      if enters component then inner.at? enters way index else none := by
  obtain ⟨outer, atOuter⟩ := List.mem_iff_getElem?.mp listed
  obtain ⟨choice, atChoice⟩ := List.mem_iff_getElem?.mp mem
  refine ⟨(outer, choice), fun enters way index => ?_⟩
  simp only [at?, atOuter, Option.filter_some]
  split
  · simp only [Option.bind_some, atChoice]
  · rfl

/-- A component of a selector is at a place without a step. -/
theorem exists_at?_of_mem (listed : component ∈ selector.components) :
    ∃ index, ∀ enters, selector.at? enters [] index = some component := by
  obtain ⟨index, there⟩ := List.mem_iff_getElem?.mp listed
  exact ⟨index, fun _ => there⟩

/-- What is at a place is a component of the selector, or stands in a selector inside one that is
entered. -/
theorem at?_cases (there : selector.at? enters way index = some found) :
    found ∈ selector.components ∨
      ∃ component ∈ selector.components, enters component = true ∧
        ∃ inner ∈ component.inside, ∃ way index, inner.at? enters way index = some found := by
  cases way with
  | nil => exact .inl (List.mem_of_getElem? there)
  | cons step way =>
    obtain ⟨component, passed, there⟩ := Option.bind_eq_some_iff.mp there
    obtain ⟨atOuter, entered⟩ := Option.filter_eq_some_iff.mp passed
    obtain ⟨inner, atChoice, there⟩ := Option.bind_eq_some_iff.mp there
    exact .inr ⟨component, List.mem_of_getElem? atOuter, entered, inner,
      List.mem_of_getElem? atChoice, way, index, there⟩

/-- A way that is entered leads to the same place when everything is entered. -/
theorem at?_of_entered (there : selector.at? enters way index = some found) :
    selector.at? (fun _ => true) way index = some found := by
  induction way generalizing selector with
  | nil => exact there
  | cons step way ih =>
    obtain ⟨component, passed, there⟩ := Option.bind_eq_some_iff.mp there
    obtain ⟨atOuter, _⟩ := Option.filter_eq_some_iff.mp passed
    obtain ⟨inner, atChoice, there⟩ := Option.bind_eq_some_iff.mp there
    simp only [at?, atOuter, Option.filter_some, if_true, Option.bind_some, atChoice, ih there]

/-! ## Classes -/

/-- A class among the components is a class of the selector. -/
theorem hasClass_of_mem {name : String} (listed : .class name ∈ selector.components) :
    selector.HasClass name := by
  obtain ⟨index, there⟩ := exists_at?_of_mem listed
  exact ⟨[], index, there _⟩

/-- All classes of a selector are at places that are entered. -/
def ClassesEntered (enters : Component → Bool) (selector : Selector) : Prop :=
  ∀ way index name, selector.at? (fun _ => true) way index = some (.class name) →
    selector.at? enters way index = some (.class name)

/-- So is a class of a selector inside a component. -/
theorem HasClass.of_inside {name : String} (listed : component ∈ selector.components)
    (mem : inner ∈ component.inside) (classed : inner.HasClass name) : selector.HasClass name := by
  obtain ⟨step, stepped⟩ := exists_step listed mem
  obtain ⟨way, index, there⟩ := classed
  exact ⟨step :: way, index, by rw [stepped, if_pos rfl, there]⟩

/-- If all classes of a selector can be entered, so can those of the selectors inside it. -/
theorem ClassesEntered.of_inside (entered : selector.ClassesEntered enters)
    (listed : component ∈ selector.components) (mem : inner ∈ component.inside)
    (enter : enters component = true) : inner.ClassesEntered enters := by
  obtain ⟨step, stepped⟩ := exists_step listed mem
  intro way index name there
  have outside := entered (step :: way) index name (by rw [stepped, if_pos rfl, there])
  rwa [stepped, if_pos enter] at outside

/-- A class of a selector is one of its components, or a class of a selector inside it. -/
theorem hasClass_iff {name : String} : selector.HasClass name ↔
    .class name ∈ selector.components ∨
      ∃ component ∈ selector.components, ∃ inner ∈ component.inside, inner.HasClass name := by
  constructor
  · rintro ⟨way, index, there⟩
    rcases at?_cases there with
      listed | ⟨component, listed, _, inner, mem, way, index, there⟩
    · exact .inl listed
    · exact .inr ⟨component, listed, inner, mem, way, index, there⟩
  · rintro (listed | ⟨component, listed, inner, mem, classed⟩)
    · exact hasClass_of_mem listed
    · exact classed.of_inside listed mem

/-- All classes are at places that are entered if every component with a selector inside is. So a
walk over a selector has to look at the components of one level only. -/
theorem classesEntered_of_forall
    (entered : ∀ component ∈ selector.components, ∀ inner ∈ component.inside,
      enters component = true ∧ inner.ClassesEntered enters) :
    selector.ClassesEntered enters := by
  intro way index name there
  cases way with
  | nil => exact there
  | cons step way =>
    obtain ⟨component, passed, there⟩ := Option.bind_eq_some_iff.mp there
    obtain ⟨atOuter, _⟩ := Option.filter_eq_some_iff.mp passed
    obtain ⟨inner, atChoice, there⟩ := Option.bind_eq_some_iff.mp there
    obtain ⟨enter, innerEntered⟩ := entered component (List.mem_of_getElem? atOuter) inner
      (List.mem_of_getElem? atChoice)
    simp only [at?, atOuter, Option.filter_some, if_pos enter, Option.bind_some, atChoice,
      innerEntered way index name there]

/-- No class stands in a selector that is not entered. -/
theorem ClassesEntered.not_hasClass (entered : selector.ClassesEntered enters)
    (listed : component ∈ selector.components) (mem : inner ∈ component.inside)
    (closed : enters component = false) (name : String) : ¬ inner.HasClass name := by
  obtain ⟨step, stepped⟩ := exists_step listed mem
  rintro ⟨way, index, there⟩
  have outside := entered (step :: way) index name (by rw [stepped, if_pos rfl, there])
  rw [stepped, if_neg (by rw [closed]; exact Bool.false_ne_true)] at outside
  cases outside

end Selector

/-! ## Classes at places that are entered -/

/-- A class stands at a place of a selector that is entered. -/
def Selector.HasClassAt (enters : Component → Bool) (selector : Selector) (name : String) : Prop :=
  ∃ way index, selector.at? enters way index = some (.class name)

/-- A component is the class, or it is entered and a selector inside it has the class. -/
def Component.HoldsClassAt (enters : Component → Bool) (component : Component) (name : String) :
    Prop :=
  component = .class name ∨
    enters component = true ∧ ∃ inner ∈ component.inside, inner.HasClassAt enters name

/-- A class that can be entered is one of some component's. It is the recursion that the definition
by ways leaves out, and the one that inductions use. -/
theorem Selector.hasClassAt_iff {enters : Component → Bool} {selector : Selector} {name : String} :
    selector.HasClassAt enters name ↔
      ∃ component ∈ selector.components, component.HoldsClassAt enters name := by
  constructor
  · rintro ⟨way, index, there⟩
    rcases at?_cases there with
      listed | ⟨component, listed, entered, inner, mem, way, index, there⟩
    · exact ⟨_, listed, .inl rfl⟩
    · exact ⟨component, listed, .inr ⟨entered, inner, mem, way, index, there⟩⟩
  · rintro ⟨component, listed, rfl | ⟨entered, inner, mem, way, index, there⟩⟩
    · obtain ⟨index, there⟩ := exists_at?_of_mem listed
      exact ⟨[], index, there _⟩
    · obtain ⟨step, stepped⟩ := exists_step listed mem
      exact ⟨step :: way, index, by rw [stepped, if_pos entered, there]⟩

end StyleGraph.Css
