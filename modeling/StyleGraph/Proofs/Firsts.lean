import Mathlib.Data.List.Nodup

/-!
# First occurrences

`List.eraseDups` keeps every item of a list where it first occurs. A list that grows item by item,
each of them put behind the others unless it is there, comes to the same (`foldl_add`).

Where only some items count, what is passed over may be missing in the end, and may come later than
it would have. `eraseDups_counted_eq_iff` tells when it does neither.
-/

set_option autoImplicit false

namespace StyleGraph.Firsts

variable {α : Type}

/-! ## Items that count -/

/-- The items that count. -/
def counted (items : List (α × Bool)) : List α := (items.filter Prod.snd).map Prod.fst

/-- A counted item is kept. -/
theorem counted_cons_true (item : α) (items : List (α × Bool)) :
    counted ((item, true) :: items) = item :: counted items := rfl

/-- One that does not count is passed over, though it may be the first of its name. -/
theorem counted_cons_false (item : α) (items : List (α × Bool)) :
    counted ((item, false) :: items) = counted items := rfl

/-- An item is counted if it occurs with the mark. -/
theorem mem_counted {item : α} {items : List (α × Bool)} :
    item ∈ counted items ↔ (item, true) ∈ items := by
  simp [counted]

/-- Lists are counted one after the other. -/
theorem counted_flatMap {β : Type} (items : List β) (f : β → List (α × Bool)) :
    counted (items.flatMap f) = items.flatMap fun item => counted (f item) := by
  rw [counted, List.filter_flatMap, List.map_flatMap]
  rfl

/-- What is made of each item is counted where the item is. -/
theorem counted_filterMap {β : Type} (items : List (β × Bool)) (f : β → Option α) :
    counted (items.filterMap fun item => (f item.1).map fun found => (found, item.2)) =
      (counted items).filterMap f := by
  induction items with
  | nil => rfl
  | cons item items ih =>
    obtain ⟨item, counts⟩ := item
    cases counts <;> cases found : f item <;>
      simp [counted_cons_true, counted_cons_false, found, ih]

variable [DecidableEq α]

/-! ## Every item once -/

/-- The first occurrences, after those items that were seen before are left out. -/
def new (seen items : List α) : List α := (items.filter fun item => item ∉ seen).eraseDups

/-- No item is new among none. -/
theorem new_nil (seen : List α) : new seen [] = [] := rfl

/-- Where nothing was seen yet, the new items are those without their repetitions. -/
theorem new_of_nothing (items : List α) : new [] items = items.eraseDups := by
  simp [new]

/-- An item that was seen adds nothing. -/
theorem new_cons_of_mem {seen : List α} {item : α} (mem : item ∈ seen) (items : List α) :
    new seen (item :: items) = new seen items := by
  simp [new, mem]

/-- An item that was not seen is new, and seen from then on. -/
theorem new_cons_of_not_mem {seen : List α} {item : α} (fresh : item ∉ seen) (items : List α) :
    new seen (item :: items) = item :: new (seen ++ [item]) items := by
  have kept : (item :: items).filter (fun other => decide (other ∉ seen)) =
      item :: items.filter fun other => decide (other ∉ seen) := by simp [fresh]
  have narrowed :
      (items.filter fun other => decide (other ∉ seen)).filter (fun other => !other == item) =
        items.filter fun other => decide (other ∉ seen ++ [item]) := by
    rw [List.filter_filter]
    refine List.filter_congr fun other _ => ?_
    by_cases same : other = item <;> simp [same]
  rw [new, kept, List.eraseDups_cons, narrowed, new]

/-- What was seen counts as a set. -/
theorem new_congr {seen known : List α} (same : ∀ item, item ∈ seen ↔ item ∈ known)
    (items : List α) : new seen items = new known items := by
  simp only [new, same]

/-- To have seen an item twice makes no difference. -/
theorem new_append_of_mem {seen : List α} {item : α} (mem : item ∈ seen) (items : List α) :
    new (seen ++ [item]) items = new seen items := by
  refine new_congr (fun other => ?_) items
  rw [List.mem_append, List.mem_singleton, or_iff_left_of_imp]
  exact fun same => same ▸ mem

/-- No item is new twice. -/
theorem nodup_new (seen items : List α) : (new seen items).Nodup := by
  induction items generalizing seen with
  | nil => exact .nil
  | cons item items ih =>
    by_cases mem : item ∈ seen
    · rw [new_cons_of_mem mem]
      exact ih seen
    · rw [new_cons_of_not_mem mem, List.nodup_cons]
      refine ⟨fun again => ?_, ih _⟩
      have filtered := List.mem_filter.mp (List.mem_eraseDups.mp again)
      simp at filtered

/-- Without repetitions no item occurs twice. -/
theorem nodup_eraseDups (items : List α) : items.eraseDups.Nodup :=
  new_of_nothing items ▸ nodup_new [] items

/-- A list with an item behind it, unless the item is in it. -/
def add (seen : List α) (item : α) : List α :=
  if seen.contains item then seen else seen ++ [item]

/-- Adding items one by one to a list that keeps each once adds the new ones, in the order in which
they come first. -/
theorem foldl_add (items seen : List α) : items.foldl add seen = seen ++ new seen items := by
  induction items generalizing seen with
  | nil => rw [List.foldl_nil, new_nil, List.append_nil]
  | cons item items ih =>
    rw [List.foldl_cons, ih, add]
    by_cases mem : item ∈ seen
    · rw [if_pos (List.contains_iff_mem.mpr mem), new_cons_of_mem mem]
    · rw [if_neg (mt List.contains_iff_mem.mp mem), new_cons_of_not_mem mem, List.append_assoc,
        List.singleton_append]

/-- **A list that grows item by item** has the first occurrences. -/
theorem foldl_add_nil (items : List α) : items.foldl add [] = items.eraseDups := by
  rw [foldl_add, List.nil_append, new_of_nothing]

/-! ## When only some items count -/

/-- An item that does not count was seen before, or of the items that follow and count it is the
first one that was not. -/
def IdleAfter (seen : List α) (items : List (α × Bool)) : Prop :=
  ∀ before item after, items = before ++ (item, false) :: after →
    item ∈ seen ++ before.map Prod.fst ∨
      (counted after).find? (fun other => other ∉ seen ++ before.map Prod.fst) = some item

/-- An item that does not count has come before, or of the items that follow and count it is the
first one that has not. -/
def Idle (items : List (α × Bool)) : Prop := IdleAfter [] items

/-- Where there are no items, no mark matters. -/
theorem idleAfter_nil (seen : List α) : IdleAfter seen [] := by
  intro before item after split
  cases before <;> cases split

/-- The mark of the first item does not matter if it is set, if the item was seen, or if the item is
the next new one among the marked. The last case is the one that is easily missed: an item that is
passed over comes back before any other new one. -/
theorem idleAfter_cons (seen : List α) (item : α) (counts : Bool) (items : List (α × Bool)) :
    IdleAfter seen ((item, counts) :: items) ↔
      (counts = true ∨ item ∈ seen ∨
        (counted items).find? (fun other => other ∉ seen) = some item) ∧
      IdleAfter (seen ++ [item]) items := by
  constructor
  · intro idle
    constructor
    · cases counts with
      | true => exact .inl rfl
      | false => simpa using idle [] item items rfl
    · rintro before other after rfl
      simpa using idle ((item, counts) :: before) other after rfl
  · rintro ⟨here, idle⟩ before other after split
    cases before with
    | nil =>
      cases split
      simpa using here
    | cons first before =>
      cases split
      simpa using idle before other after rfl

/-- The first occurrences begin with an item if the list does. So the first of several listed items
can be read off without the rest. -/
theorem new_eq_cons_iff {seen : List α} {item : α} (items rest : List α) :
    new seen items = item :: rest ↔
      items.find? (fun other => other ∉ seen) = some item ∧ new (seen ++ [item]) items = rest := by
  induction items with
  | nil => simp [new_nil]
  | cons first items ih =>
    by_cases mem : first ∈ seen
    · rw [new_cons_of_mem mem, new_cons_of_mem (List.mem_append_left _ mem), ih]
      simp [mem]
    · rw [new_cons_of_not_mem mem, List.cons_eq_cons, List.find?_cons_of_pos (by simpa using mem),
        Option.some_inj]
      refine and_congr_right ?_
      rintro rfl
      rw [new_cons_of_mem (List.mem_append_right _ (List.mem_singleton_self _))]

/-- The marked items have the same new ones in the same order as all items just if no mark matters,
by induction on the items with those that were seen. -/
theorem new_counted_eq_iff (seen : List α) (items : List (α × Bool)) :
    new seen (counted items) = new seen (items.map Prod.fst) ↔ IdleAfter seen items := by
  induction items generalizing seen with
  | nil => exact iff_of_true rfl (idleAfter_nil seen)
  | cons first items ih =>
    obtain ⟨item, counts⟩ := first
    rw [idleAfter_cons, ← ih, List.map_cons]
    by_cases mem : item ∈ seen
    · rw [new_cons_of_mem mem, new_append_of_mem mem, new_append_of_mem mem]
      cases counts <;> simp [counted_cons_true, counted_cons_false, new_cons_of_mem mem, mem]
    · rw [new_cons_of_not_mem mem]
      cases counts with
      | true => simp [counted_cons_true, new_cons_of_not_mem mem]
      | false => rw [counted_cons_false, new_eq_cons_iff]; simp [mem]

/-- **When passing over items makes no difference**: the first occurrences of the items that count
are those of all items just when every other item is idle. -/
theorem eraseDups_counted_eq_iff (items : List (α × Bool)) :
    (counted items).eraseDups = (items.map Prod.fst).eraseDups ↔ Idle items := by
  rw [← new_of_nothing, ← new_of_nothing]
  exact new_counted_eq_iff [] items

end StyleGraph.Firsts
