import Mathlib.Data.Finset.Card

/-!
# Marks

A search marks what it comes to and takes no mark away. Of finitely many names that can be marked
fewer and fewer remain (`remaining_lt`), which is why a search ends, whatever it still has to do.
What is marked between two states of a search is new there (`new_trans`), and that is what can be
said of a part of a search while other parts wait.
-/

set_option autoImplicit false

namespace StyleGraph.Marks

/-- How many of some names are not marked. -/
def remaining (all marks : List String) : Nat := (all.toFinset \ marks.toFinset).card

variable {all marks more : List String} {name : String}

/-- Marking more leaves fewer to be marked, which is the measure every walk over a finite set goes
down by. -/
theorem remaining_le (grown : marks ⊆ more) : remaining all more ≤ remaining all marks := by
  refine Finset.card_le_card (Finset.sdiff_subset_sdiff (Finset.Subset.refl _) fun other mem => ?_)
  exact List.mem_toFinset.mpr (grown (List.mem_toFinset.mp mem))

/-- There are never more left than there were. -/
theorem remaining_le_length (all marks : List String) : remaining all marks ≤ all.length :=
  Nat.le_trans (Finset.card_le_card Finset.sdiff_subset) (List.toFinset_card_le all)

/-- Fewer names remain when one of them gets its mark. -/
theorem remaining_lt (listed : name ∈ all) (new : name ∉ marks) (marked : name :: marks ⊆ more) :
    remaining all more < remaining all marks := by
  refine Finset.card_lt_card (Finset.ssubset_iff_of_subset ?_ |>.mpr ⟨name, ?_, ?_⟩)
  · refine Finset.sdiff_subset_sdiff (Finset.Subset.refl _) fun other mem => ?_
    exact List.mem_toFinset.mpr (marked (List.mem_cons_of_mem _ (List.mem_toFinset.mp mem)))
  · exact Finset.mem_sdiff.mpr ⟨List.mem_toFinset.mpr listed, by simpa using new⟩
  · have there := marked List.mem_cons_self
    simp [there]

/-- A name is new over two stretches when it is new over the first or over the second. -/
theorem new_trans {first second third : List String} (grown : first ⊆ second)
    (grownAgain : second ⊆ third) (name : String) :
    (name ∈ third ∧ name ∉ first) ↔
      (name ∈ second ∧ name ∉ first) ∨ (name ∈ third ∧ name ∉ second) := by
  constructor
  · rintro ⟨mem, new⟩
    by_cases between : name ∈ second
    · exact .inl ⟨between, new⟩
    · exact .inr ⟨mem, between⟩
  · rintro (⟨mem, new⟩ | ⟨mem, new⟩)
    · exact ⟨grownAgain mem, new⟩
    · exact ⟨mem, fun before => new (grown before)⟩

end StyleGraph.Marks
