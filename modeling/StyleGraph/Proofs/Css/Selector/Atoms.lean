import StyleGraph.Proofs.Css.Selector.Places
import StyleGraph.Proofs.Css.Selector.Written
import StyleGraph.Proofs.Firsts

/-!
# The classes of a selector, one after the other

Places tell where a class stands in a selector, not which of two classes is written first. Here the
classes of a selector are listed as they are written, at whatever depth, each with whether only
components that are entered lead to it. `mem_atoms_iff` ties the list to places: it has the classes
at all of them.
-/

set_option autoImplicit false

namespace StyleGraph.Css

/-- The classes inside a component that is entered or is not. -/
def under (entered : Bool) (atoms : List (String × Bool)) : List (String × Bool) :=
  atoms.map fun atom => (atom.1, entered && atom.2)

mutual

/-- The classes of a component, as they are written. -/
def Component.atoms (enters : Component → Bool) : Component → List (String × Bool)
  | .class name => [(name, true)]
  | .list kind selectors =>
    under (enters (.list kind selectors)) (Selector.atomsOfAll enters selectors)
  | .wrap kind inner => under (enters (.wrap kind inner)) (Selector.atoms enters inner)
  | .nthOf position selectors =>
    under (enters (.nthOf position selectors)) (Selector.atomsOfAll enters selectors)
  | _ => []

/-- The classes of a selector, as they are written. -/
def Selector.atoms (enters : Component → Bool) : Selector → List (String × Bool)
  | .mk components _ =>
    (Selector.turn (fun entry => entry.1.isCombinator)
      (Component.withAtoms enters components)).flatMap Prod.snd

/-- Components with their classes. -/
def Component.withAtoms (enters : Component → Bool) :
    List Component → List (Component × List (String × Bool))
  | [] => []
  | component :: rest =>
    (component, Component.atoms enters component) :: Component.withAtoms enters rest

/-- The classes of selectors, as they are written. -/
def Selector.atomsOfAll (enters : Component → Bool) : List Selector → List (String × Bool)
  | [] => []
  | selector :: rest => Selector.atoms enters selector ++ Selector.atomsOfAll enters rest

end

variable {enters : Component → Bool}

/-- Each component is listed with the class atoms it holds. -/
theorem Component.withAtoms_eq (components : List Component) :
    Component.withAtoms enters components =
      components.map fun component => (component, component.atoms enters) := by
  induction components with
  | nil => rw [Component.withAtoms, List.map_nil]
  | cons component rest ih => rw [Component.withAtoms, ih, List.map_cons]

/-- The atoms of a list are those of its selectors in order. -/
theorem Selector.atomsOfAll_eq (selectors : List Selector) :
    Selector.atomsOfAll enters selectors = selectors.flatMap (Selector.atoms enters) := by
  induction selectors with
  | nil => rw [Selector.atomsOfAll, List.flatMap_nil]
  | cons selector rest ih => rw [Selector.atomsOfAll, ih, List.flatMap_cons]

/-- Tags that stand beside components are put into written order with them. -/
theorem Selector.flatMap_turn_tagged {β : Type} (tag : Component → List β)
    (components : List Component) :
    (turn (fun entry => entry.1.isCombinator)
      (components.map fun component => (component, tag component))).flatMap Prod.snd =
        (turn Component.isCombinator components).flatMap tag := by
  have turned : turn (fun entry : Component × List β => entry.1.isCombinator)
      (components.map fun component => (component, tag component)) =
        (turn Component.isCombinator components).map fun component => (component, tag component) :=
    turn_map (fun _ => rfl) components
  rw [turned, List.flatMap_map]

/-- The classes of a selector are those of its components, in written order. -/
theorem Selector.atoms_eq (selector : Selector) :
    selector.atoms enters = selector.written.flatMap (Component.atoms enters) := by
  obtain ⟨components, flags⟩ := selector
  rw [Selector.atoms, Component.withAtoms_eq, flatMap_turn_tagged]
  rfl

/-- The classes of a component are the one that it is, or those of the selectors inside it. -/
theorem Component.atoms_eq (component : Component) :
    component.atoms enters = match component.class? with
      | some name => [(name, true)]
      | none => under (enters component) (component.inside.flatMap (Selector.atoms enters)) := by
  cases component with
  | list kind selectors => rw [Component.atoms, Selector.atomsOfAll_eq]; rfl
  | nthOf position selectors => rw [Component.atoms, Selector.atomsOfAll_eq]; rfl
  | wrap kind inner => simp [Component.atoms, Component.class?, Component.inside]
  | _ => rfl

/-- Atoms below a component count as shown only if the component is entered. -/
theorem mem_under {entered : Bool} {atoms : List (String × Bool)} {atom : String × Bool} :
    atom ∈ under entered atoms ↔
      ∃ shown, (atom.1, shown) ∈ atoms ∧ atom.2 = (entered && shown) := by
  obtain ⟨name, counts⟩ := atom
  simp only [under, List.mem_map, Prod.exists, Prod.mk.injEq]
  constructor
  · rintro ⟨_, shown, mem, rfl, rfl⟩
    exact ⟨shown, mem, rfl⟩
  · rintro ⟨shown, mem, rfl⟩
    exact ⟨name, shown, mem, rfl, rfl⟩

/-- An atom of a component is its own class, or one of a selector inside it. Inside, it is shown
only if the component is entered. -/
theorem Component.mem_atoms {component : Component} {atom : String × Bool} :
    atom ∈ component.atoms enters ↔ component = .class atom.1 ∧ atom.2 = true ∨
      ∃ inner ∈ component.inside, ∃ shown, (atom.1, shown) ∈ inner.atoms enters ∧
        atom.2 = (enters component && shown) := by
  rw [Component.atoms_eq]
  by_cases named : ∃ name, component = .class name
  · obtain ⟨name, rfl⟩ := named
    obtain ⟨other, counts⟩ := atom
    simp only [Component.class?, Component.inside, List.mem_singleton, List.not_mem_nil,
      false_and, exists_false, or_false, Prod.mk.injEq, Component.class.injEq, eq_comm]
  · have unnamed : component.class? = none := by
      cases component with
      | «class» name => exact absurd ⟨name, rfl⟩ named
      | _ => rfl
    have other : component ≠ .class atom.1 := fun same => named ⟨_, same⟩
    simp only [unnamed, mem_under, List.mem_flatMap, other, false_and, false_or]
    constructor
    · rintro ⟨shown, ⟨inner, mem, listed⟩, counts⟩
      exact ⟨inner, mem, shown, listed, counts⟩
    · rintro ⟨inner, mem, shown, listed, counts⟩
      exact ⟨shown, ⟨inner, mem, listed⟩, counts⟩

namespace Selector

variable {selector : Selector} {name : String}

/-- An atom of a selector is one of its components'. -/
theorem mem_atoms {atom : String × Bool} :
    atom ∈ selector.atoms enters ↔
      ∃ component ∈ selector.components, atom ∈ component.atoms enters := by
  simp only [atoms_eq, List.mem_flatMap, written, mem_turn]

/-- **A class counts where it stands at a place that is entered.** By induction along the places: a
class inside a component counts if the component is entered and the class counts inside. -/
theorem mem_atoms_true_iff :
    (name, true) ∈ selector.atoms enters ↔ selector.HasClassAt enters name := by
  induction selector using inside_induction with
  | step selector ih =>
    rw [mem_atoms, hasClassAt_iff]
    refine exists_congr fun component => and_congr_right fun listed => ?_
    rw [Component.mem_atoms, Component.HoldsClassAt]
    refine or_congr (and_iff_left rfl) ?_
    constructor
    · rintro ⟨inner, mem, shown, there, counts⟩
      obtain ⟨entered, rfl⟩ := Bool.and_eq_true_iff.mp counts.symm
      exact ⟨entered, inner, mem, (ih component listed inner mem).mp there⟩
    · rintro ⟨entered, inner, mem, there⟩
      exact ⟨inner, mem, true, (ih component listed inner mem).mpr there, by rw [entered]; rfl⟩

/-- **The classes of a selector are those at all its places**, entered or not. The mark that goes
with a class does not matter here, so no place has to be entered. -/
theorem mem_atoms_iff : (∃ shown, (name, shown) ∈ selector.atoms enters) ↔
    selector.HasClass name := by
  induction selector using inside_induction with
  | step selector ih =>
    rw [hasClass_iff]
    constructor
    · rintro ⟨shown, there⟩
      obtain ⟨component, listed, there⟩ := mem_atoms.mp there
      rcases Component.mem_atoms.mp there with ⟨rfl, _⟩ | ⟨inner, mem, shown, there, _⟩
      · exact .inl listed
      · exact .inr ⟨component, listed, inner, mem,
          (ih component listed inner mem).mp ⟨shown, there⟩⟩
    · rintro (listed | ⟨component, listed, inner, mem, classed⟩)
      · exact ⟨true, mem_atoms.mpr ⟨_, listed, Component.mem_atoms.mpr (.inl ⟨rfl, rfl⟩)⟩⟩
      · obtain ⟨shown, there⟩ := (ih component listed inner mem).mpr classed
        exact ⟨_, mem_atoms.mpr ⟨component, listed,
          Component.mem_atoms.mpr (.inr ⟨inner, mem, shown, there, rfl⟩)⟩⟩

end Selector

end StyleGraph.Css
