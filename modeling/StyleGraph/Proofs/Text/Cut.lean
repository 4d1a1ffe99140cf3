import Mathlib.Data.List.Infix
import StyleGraph.Text.Cut

/-!
# Cutting and joining

What `Text.cutAll` finds in a text that was joined, and what no piece of a cut holds. Joining pieces
that hold no separator and cutting the result again gives the pieces. The same holds of one cut at
the first or the last separator. What is left when an end is taken off a text is what stood before
that end.

In two texts that are put together a text stands as often as in both of them, and across the joint.
`Apart` says that it does not stand across the joint; this can be told from the characters next to
the joint, or from a character that one side has not.
-/

set_option autoImplicit false

namespace StyleGraph.Text

variable {sep : Char}

/-- A text without the separator is one piece. -/
theorem cutAll_of_not_mem {cs : List Char} (absent : sep ∉ cs) : cutAll sep cs = [cs] := by
  induction cs with
  | nil => rfl
  | cons c rest ih =>
    obtain ⟨differs, absent⟩ := List.ne_and_not_mem_of_not_mem_cons absent
    simp only [cutAll, if_neg (Ne.symm differs), ih absent]

/-- The first piece ends at the first separator. -/
theorem cutAll_append_cons {piece : List Char} (absent : sep ∉ piece) (rest : List Char) :
    cutAll sep (piece ++ sep :: rest) = piece :: cutAll sep rest := by
  induction piece with
  | nil => simp only [List.nil_append, cutAll, if_true]
  | cons c piece ih =>
    obtain ⟨differs, absent⟩ := List.ne_and_not_mem_of_not_mem_cons absent
    simp only [List.cons_append, cutAll, if_neg (Ne.symm differs), ih absent]

/-- **Cutting undoes joining**, when no piece holds the separator. -/
theorem cutAll_joinWith {pieces : List (List Char)} (absent : ∀ piece ∈ pieces, sep ∉ piece)
    (nonempty : pieces ≠ []) : cutAll sep (joinWith [sep] pieces) = pieces := by
  induction pieces with
  | nil => exact absurd rfl nonempty
  | cons piece pieces ih =>
    have headAbsent := absent piece List.mem_cons_self
    cases pieces with
    | nil => exact cutAll_of_not_mem headAbsent
    | cons next pieces =>
      have tailCut := ih (fun piece mem => absent piece (List.mem_cons_of_mem _ mem)) (by simp)
      simp only [joinWith, List.append_assoc, List.singleton_append]
      rw [cutAll_append_cons headAbsent, tailCut]

/-- A cut has at least one piece. -/
theorem cutAll_ne_nil (cs : List Char) : cutAll sep cs ≠ [] := by
  cases cs with
  | nil => simp only [cutAll, ne_eq, List.cons_ne_self, not_false_eq_true]
  | cons c rest =>
    simp only [cutAll]
    split
    · simp
    · split <;> simp

/-- The first piece is what stands before the first separator. More text before it changes no other
piece. -/
theorem exists_cutAll_append_eq (sep : Char) (cs : List Char) : ∃ pieces, ∀ lead, sep ∉ lead →
    cutAll sep (lead ++ cs) = (lead ++ cs.takeWhile (· != sep)) :: pieces := by
  by_cases mem : sep ∈ cs
  · obtain ⟨before, after, rfl, absent⟩ := List.eq_append_cons_of_mem mem
    have passed : ∀ c ∈ before, (c != sep) = true := by
      intro c listed
      exact bne_iff_ne.mpr fun same => absent (same ▸ listed)
    refine ⟨cutAll sep after, fun lead leadAbsent => ?_⟩
    rw [← List.append_assoc, cutAll_append_cons (by simp [leadAbsent, absent]),
      List.takeWhile_append_of_pos passed]
    simp
  · have passed : ∀ c ∈ cs, (c != sep) = true := by
      intro c listed
      exact bne_iff_ne.mpr fun same => mem (same ▸ listed)
    have all : (cs ++ []).takeWhile (· != sep) = cs := by
      rw [List.takeWhile_append_of_pos passed, List.takeWhile_nil, List.append_nil]
    rw [List.append_nil] at all
    refine ⟨[], fun lead leadAbsent => ?_⟩
    rw [cutAll_of_not_mem (by simp [leadAbsent, mem]), all]

/-- A text is cut at a separator as the texts on both sides of it are. -/
theorem cutAll_append_sep (before after : List Char) :
    cutAll sep (before ++ sep :: after) = cutAll sep before ++ cutAll sep after := by
  induction before with
  | nil => simp only [List.nil_append, cutAll, if_true, List.singleton_append]
  | cons c before ih =>
    simp only [List.cons_append, cutAll, ih]
    split
    · rfl
    · cases cut : cutAll sep before with
      | nil => exact absurd cut (cutAll_ne_nil before)
      | cons piece pieces => rfl

/-- **The pieces of a text, joined again, are the text.** -/
theorem joinWith_cutAll (sep : Char) (cs : List Char) : joinWith [sep] (cutAll sep cs) = cs := by
  induction cs with
  | nil => rfl
  | cons c rest ih =>
    have some : cutAll sep rest ≠ [] := cutAll_ne_nil rest
    obtain ⟨piece, pieces, cut⟩ := List.exists_cons_of_ne_nil some
    rw [cut] at ih
    by_cases same : c = sep
    · simp only [cutAll, same, if_true, cut, joinWith, List.nil_append, ih, List.singleton_append]
    · simp only [cutAll, same, if_false, cut]
      rw [← ih]
      cases pieces <;> rfl

/-- A joined text is cut into the pieces of what was joined. -/
theorem cutAll_joinWith_eq_flatMap {pieces : List (List Char)} (nonempty : pieces ≠ []) :
    cutAll sep (joinWith [sep] pieces) = pieces.flatMap (cutAll sep) := by
  induction pieces with
  | nil => exact absurd rfl nonempty
  | cons piece pieces ih =>
    cases pieces with
    | nil => simp only [joinWith, List.flatMap_cons, List.flatMap_nil, List.append_nil]
    | cons next pieces =>
      have tailCut := ih (by simp)
      simp only [joinWith, List.append_assoc, List.singleton_append]
      rw [cutAll_append_sep, tailCut]
      simp only [List.flatMap_cons]

/-- No piece of a cut holds the separator. By induction on the text: a separator begins a new piece,
and any other character goes to the first one. -/
theorem not_mem_of_mem_cutAll {cs piece : List Char} (mem : piece ∈ cutAll sep cs) :
    sep ∉ piece := by
  induction cs generalizing piece with
  | nil =>
    simp only [cutAll, List.mem_singleton] at mem
    simp [mem]
  | cons c rest ih =>
    simp only [cutAll] at mem
    split at mem
    next =>
      rcases List.mem_cons.mp mem with rfl | mem
      · exact List.not_mem_nil
      · exact ih mem
    next differs =>
      split at mem
      next empty => exact absurd empty (cutAll_ne_nil rest)
      next first others cut =>
        rw [cut] at ih
        rcases List.mem_cons.mp mem with rfl | mem
        · exact List.not_mem_cons_of_ne_of_not_mem (Ne.symm differs) (ih List.mem_cons_self)
        · exact ih (List.mem_cons_of_mem _ mem)

/-- What a piece of a cut holds is part of the text. Cutting takes separators away and adds nothing.
-/
theorem mem_of_mem_cutAll {cs piece : List Char} {c : Char} (cut : piece ∈ cutAll sep cs)
    (mem : c ∈ piece) : c ∈ cs := by
  induction cs generalizing piece with
  | nil =>
    rw [List.mem_singleton.mp cut] at mem
    exact mem
  | cons first rest ih =>
    simp only [cutAll] at cut
    split at cut
    next =>
      rcases List.mem_cons.mp cut with rfl | cut
      · exact absurd mem List.not_mem_nil
      · exact List.mem_cons_of_mem _ (ih cut mem)
    next =>
      split at cut
      next empty => exact absurd empty (cutAll_ne_nil rest)
      next next others parts =>
        rw [parts] at ih
        rcases List.mem_cons.mp cut with rfl | cut
        · rcases List.mem_cons.mp mem with rfl | mem
          · exact List.mem_cons_self
          · exact List.mem_cons_of_mem _ (ih List.mem_cons_self mem)
        · exact List.mem_cons_of_mem _ (ih (List.mem_cons_of_mem _ cut) mem)

/-- A last piece is joined behind the others, with a separator if there are any. -/
theorem joinWith_append_singleton (lead : List Char) (pieces : List (List Char))
    (piece : List Char) :
    joinWith lead (pieces ++ [piece]) =
      if pieces = [] then piece else joinWith lead pieces ++ lead ++ piece := by
  induction pieces with
  | nil => rfl
  | cons first pieces ih =>
    cases pieces with
    | nil => simp [joinWith]
    | cons next pieces =>
      have tailJoined := ih
      simp only [List.cons_append, reduceCtorEq, if_false] at tailJoined ⊢
      simp only [joinWith, tailJoined, List.append_assoc]

/-- Joined texts are joined by one separator. Neither list may be empty, or there would be one
separator too many. -/
theorem joinWith_append (lead : List Char) {pieces others : List (List Char)}
    (nonempty : pieces ≠ []) (othersNonempty : others ≠ []) :
    joinWith lead (pieces ++ others) = joinWith lead pieces ++ lead ++ joinWith lead others := by
  induction pieces with
  | nil => exact absurd rfl nonempty
  | cons first pieces ih =>
    cases pieces with
    | nil =>
      cases others with
      | nil => exact absurd rfl othersNonempty
      | cons other others => rfl
    | cons next pieces =>
      have tailJoined := ih (by simp)
      simp only [List.cons_append] at tailJoined ⊢
      simp only [joinWith, tailJoined, List.append_assoc]

/-- Joining leaves something if the first piece has something. -/
theorem joinWith_cons_ne_nil {piece : List Char} (filled : piece ≠ []) (lead : List Char)
    (pieces : List (List Char)) : joinWith lead (piece :: pieces) ≠ [] := by
  cases pieces <;> simp [joinWith, filled]

/-- The characters of two texts that are spelled out, one behind the other. Evaluated, such a text is
decoded from its bytes; here they are read off. -/
theorem toList_ofList_append (before after : List Char) :
    (String.ofList before ++ String.ofList after).toList = before ++ after := by
  rw [String.toList_append, String.toList_ofList, String.toList_ofList]

/-- The characters of joined strings. -/
theorem toList_intercalate (lead : String) (pieces : List String) :
    (String.intercalate lead pieces).toList =
      joinWith lead.toList (pieces.map String.toList) := by
  rw [String.toList_intercalate]
  induction pieces with
  | nil => rfl
  | cons piece pieces ih =>
    cases pieces with
    | nil => simp [joinWith]
    | cons next pieces =>
      simp only [List.map_cons] at ih ⊢
      rw [List.intercalate_cons_cons, ih]
      rfl

/-- A joined text holds what its pieces hold and what stands between them. -/
theorem not_mem_joinWith {lead : List Char} {pieces : List (List Char)} {c : Char}
    (between : c ∉ lead) (within : ∀ piece ∈ pieces, c ∉ piece) : c ∉ joinWith lead pieces := by
  induction pieces with
  | nil => exact List.not_mem_nil
  | cons piece pieces ih =>
    have first := within piece List.mem_cons_self
    have others := ih fun other mem => within other (List.mem_cons_of_mem _ mem)
    cases pieces with
    | nil => exact first
    | cons next pieces =>
      simp only [joinWith, List.mem_append, not_or]
      exact ⟨⟨first, between⟩, others⟩

/-- A piece stands in what it is joined to. -/
theorem infix_joinWith {lead piece : List Char} {pieces : List (List Char)}
    (mem : piece ∈ pieces) : piece <:+: joinWith lead pieces := by
  induction pieces with
  | nil => cases mem
  | cons first pieces ih =>
    cases pieces with
    | nil =>
      rcases List.mem_singleton.mp mem with rfl
      exact List.infix_rfl
    | cons next pieces =>
      simp only [joinWith, List.append_assoc]
      rcases List.mem_cons.mp mem with rfl | mem
      · exact (List.prefix_append piece _).isInfix
      · have behind : joinWith lead (next :: pieces) <:+
            first ++ (lead ++ joinWith lead (next :: pieces)) :=
          (List.suffix_append _ _).trans (List.suffix_append _ _)
        exact (ih mem).trans behind.isInfix

/-! ## One cut -/

/-- The first separator is where a text is cut. -/
theorem cutFirst_append_cons {before : List Char} (absent : sep ∉ before) (after : List Char) :
    cutFirst sep (before ++ sep :: after) = (before, some after) := by
  induction before with
  | nil => simp only [List.nil_append, cutFirst, if_true]
  | cons c before ih =>
    obtain ⟨differs, absent⟩ := List.ne_and_not_mem_of_not_mem_cons absent
    simp only [List.cons_append, cutFirst, if_neg (Ne.symm differs), ih absent]

/-- Without a separator a text is not cut. -/
theorem cutFirst_of_not_mem {cs : List Char} (absent : sep ∉ cs) :
    cutFirst sep cs = (cs, none) := by
  induction cs with
  | nil => rfl
  | cons c rest ih =>
    obtain ⟨differs, absent⟩ := List.ne_and_not_mem_of_not_mem_cons absent
    simp only [cutFirst, if_neg (Ne.symm differs), ih absent]

/-- The two parts and the separator between them are the text. -/
theorem cutFirst_append_eq (sep : Char) (cs : List Char) :
    (cutFirst sep cs).1 ++ (cutFirst sep cs).2.elim [] (sep :: ·) = cs := by
  induction cs with
  | nil => rfl
  | cons c rest ih =>
    rw [cutFirst]
    split
    next same => simp [same]
    next => exact congrArg (c :: ·) ih

/-- The last separator is where a text is cut. -/
theorem cutAfterLast_append_cons {after : List Char} (absent : sep ∉ after)
    (before : List Char) :
    cutAfterLast sep (before ++ sep :: after) = (before ++ [sep], after) := by
  have passed : ∀ c ∈ after.reverse, (c != sep) = true := by
    intro c mem
    exact bne_iff_ne.mpr fun same => absent (same ▸ List.mem_reverse.mp mem)
  have turned : (before ++ sep :: after).reverse = after.reverse ++ sep :: before.reverse := by simp
  rw [cutAfterLast, turned, List.takeWhile_append_of_pos passed,
    List.dropWhile_append_of_pos passed]
  simp

/-- Without a separator nothing comes before the cut. -/
theorem cutAfterLast_of_not_mem {cs : List Char} (absent : sep ∉ cs) :
    cutAfterLast sep cs = ([], cs) := by
  have passed : ∀ c ∈ cs.reverse, (c != sep) = true := by
    intro c mem
    exact bne_iff_ne.mpr fun same => absent (same ▸ List.mem_reverse.mp mem)
  rw [cutAfterLast, ← List.append_nil cs.reverse, List.takeWhile_append_of_pos passed,
    List.dropWhile_append_of_pos passed]
  simp

/-- A text that holds a separator is cut at a last one. -/
theorem exists_append_cons_of_mem {cs : List Char} (mem : sep ∈ cs) :
    ∃ before after, cs = before ++ sep :: after ∧ sep ∉ after := by
  obtain ⟨after, before, turned, absent⟩ := List.eq_append_cons_of_mem (List.mem_reverse.mpr mem)
  refine ⟨before.reverse, after.reverse, ?_, fun mem => absent (List.mem_reverse.mp mem)⟩
  simpa using congrArg List.reverse turned

/-- A query begins at the first `?`. -/
theorem cutQuery_append {path query : List Char} (absent : '?' ∉ path)
    (begins : query = [] ∨ ∃ body, query = '?' :: body) :
    cutQuery (path ++ query) = (path, query) := by
  have passed : ∀ c ∈ path, (c != '?') = true := by
    intro c mem
    exact bne_iff_ne.mpr fun same => absent (same ▸ mem)
  rw [cutQuery, List.takeWhile_append_of_pos passed, List.dropWhile_append_of_pos passed]
  rcases begins with rfl | ⟨body, rfl⟩ <;> simp

/-- Every text has a path, and a query or nothing behind it. -/
theorem exists_cutQuery_eq (cs : List Char) : ∃ path query, cs = path ++ query ∧ '?' ∉ path ∧
    (query = [] ∨ ∃ body, query = '?' :: body) ∧ cutQuery cs = (path, query) := by
  by_cases asked : '?' ∈ cs
  · obtain ⟨path, body, rfl, absent⟩ := List.eq_append_cons_of_mem asked
    have begins : '?' :: body = [] ∨ ∃ rest, '?' :: body = '?' :: rest := .inr ⟨body, rfl⟩
    exact ⟨path, '?' :: body, rfl, absent, begins, cutQuery_append absent begins⟩
  · have cut : cutQuery (cs ++ []) = (cs, []) := cutQuery_append asked (.inl rfl)
    rw [List.append_nil] at cut
    exact ⟨cs, [], (List.append_nil cs).symm, asked, .inl rfl, cut⟩

/-- A beginning that is taken off stood before what is left. -/
theorem eq_append_of_stripStart? {start cs rest : List Char}
    (found : stripStart? start cs = some rest) : cs = start ++ rest := by
  induction start generalizing cs with
  | nil => cases found; rfl
  | cons p start ih =>
    cases cs with
    | nil => cases found
    | cons c cs =>
      rw [stripStart?] at found
      split at found
      next same => rw [same, List.cons_append, ← ih found]
      next => cases found

/-- An end that is taken off stood behind what is left. -/
theorem eq_append_of_stripEnd? {tail cs stem : List Char} (found : stripEnd? tail cs = some stem) :
    cs = stem ++ tail := by
  obtain ⟨rest, stripped, rfl⟩ := Option.map_eq_some_iff.mp found
  have turned := congrArg List.reverse (eq_append_of_stripStart? stripped)
  simpa using turned

/-- A text that begins with another is stripped of it. -/
theorem stripStart?_append (start rest : List Char) :
    stripStart? start (start ++ rest) = some rest := by
  induction start with
  | nil => rfl
  | cons p start ih => simp only [List.cons_append, stripStart?, if_true, ih]

/-- An end is taken off just where it stands. -/
theorem stripEnd?_eq_some_iff {tail cs stem : List Char} :
    stripEnd? tail cs = some stem ↔ cs = stem ++ tail := by
  refine ⟨eq_append_of_stripEnd?, ?_⟩
  rintro rfl
  simp only [stripEnd?, List.reverse_append, stripStart?_append, Option.map_some,
    List.reverse_reverse]

/-- A tail without the separator is cut off behind the last separator. So only the last piece has to
be looked at for it. -/
theorem stripEnd?_append_cons {tail : List Char} (absent : sep ∉ tail) (lead cs : List Char) :
    stripEnd? tail (lead ++ sep :: cs) =
      (stripEnd? tail cs).map fun stem => lead ++ sep :: stem := by
  refine Option.ext fun stem => ?_
  rw [stripEnd?_eq_some_iff, Option.map_eq_some_iff]
  constructor
  · intro whole
    rcases List.append_eq_append_iff.mp whole with ⟨more, rfl, cut⟩ | ⟨more, -, cut⟩
    · cases more with
      | nil => exact absurd (by rw [← List.nil_append tail, ← cut]; simp) absent
      | cons c more =>
        obtain ⟨rfl, rfl⟩ := List.cons.inj cut
        exact ⟨more, stripEnd?_eq_some_iff.mpr rfl, rfl⟩
    · exact absurd (by rw [cut]; simp) absent
  · rintro ⟨rest, found, rfl⟩
    rw [stripEnd?_eq_some_iff.mp found, List.append_assoc, List.cons_append]

/-- The test on beginnings is the notion of one. -/
theorem startsWith_iff {start cs : List Char} :
    startsWith start cs = true ↔ ∃ rest, cs = start ++ rest := by
  rw [startsWith, Option.isSome_iff_exists]
  refine exists_congr fun rest => ⟨eq_append_of_stripStart?, ?_⟩
  rintro rfl
  exact stripStart?_append start rest

/-- A text has one last separator. -/
theorem append_cons_inj_of_not_mem {before after other last : List Char} (absent : sep ∉ after)
    (absentLast : sep ∉ last) (same : before ++ sep :: after = other ++ sep :: last) :
    before = other ∧ after = last := by
  have cut := cutAfterLast_append_cons absent before
  rw [same, cutAfterLast_append_cons absentLast other] at cut
  simpa [eq_comm] using cut

/-! ## Occurrences -/

section Occurrences

/-- The number of places at which `part` begins in a text. -/
def occurrences (part : List Char) : List Char → Nat
  | [] => 0
  | c :: rest => (if part <+: c :: rest then 1 else 0) + occurrences part rest

/-- `part` does not stand across the joint of two texts. -/
def Apart (part before after : List Char) : Prop :=
  ∀ lead tail, part = lead ++ tail → lead ≠ [] → tail ≠ [] → lead <:+ before → ¬ tail <+: after

variable {part before after : List Char}

/-- **Of two texts without an occurrence across their joint**, the occurrences are those in both. By
induction on the first text, where an occurrence that begins in it ends in it as well. -/
theorem occurrences_append (apart : Apart part before after) :
    occurrences part (before ++ after) = occurrences part before + occurrences part after := by
  induction before with
  | nil => simp [occurrences]
  | cons c before ih =>
    have inner : Apart part before after := fun lead tail split some more ends =>
      apart lead tail split some more (ends.trans (List.suffix_cons c before))
    have begins : part <+: c :: (before ++ after) ↔ part <+: c :: before := by
      refine ⟨fun begins => ?_, fun begins => begins.trans (List.prefix_append (c :: before) after)⟩
      rcases List.prefix_or_prefix_of_prefix begins (List.prefix_append (c :: before) after) with
        inside | ⟨tail, across⟩
      · exact inside
      · cases tail with
        | nil => exact ⟨[], by rw [← across, List.append_nil, List.append_nil]⟩
        | cons next tail =>
          refine absurd ?_ (apart (c :: before) (next :: tail) across.symm (List.cons_ne_nil _ _)
            (List.cons_ne_nil _ _) List.suffix_rfl)
          rw [← across, ← List.cons_append, List.prefix_append_right_inj] at begins
          exact begins
    rw [List.cons_append, occurrences, occurrences, ih inner, Nat.add_assoc]
    simp only [begins]

/-- A text without a character of `part` has no occurrence. -/
theorem occurrences_eq_zero {c : Char} (needed : c ∈ part) {cs : List Char} (absent : c ∉ cs) :
    occurrences part cs = 0 := by
  induction cs with
  | nil => rfl
  | cons first rest ih =>
    have begins : ¬ part <+: first :: rest := fun begins => absent (begins.subset needed)
    rw [occurrences, if_neg begins, ih fun mem => absent (List.mem_cons_of_mem _ mem)]

/-! ### Joints without an occurrence -/

/-- The character before the joint is none of `part` but its last one. -/
theorem apart_of_getLast? (stops : ∀ c ∈ before.getLast?, c ∉ part.dropLast) (after : List Char) :
    Apart part before after := by
  rintro lead tail rfl some more ⟨rest, rfl⟩ -
  obtain ⟨init, last, rfl⟩ := (List.eq_nil_or_concat lead).resolve_left some
  rw [List.dropLast_append_of_ne_nil more] at stops
  exact stops last (by simp) (by simp)

/-- The character behind the joint is none of `part` but its first one. -/
theorem apart_of_head? (stops : ∀ c ∈ after.head?, c ∉ part.tail) (before : List Char) :
    Apart part before after := by
  rintro lead tail rfl some more - ⟨rest, rfl⟩
  obtain ⟨first, lead, rfl⟩ := List.exists_cons_of_ne_nil some
  obtain ⟨next, tail, rfl⟩ := List.exists_cons_of_ne_nil more
  exact stops next (by simp) (by simp)

/-- What stands behind the joint has not the last character of `part`. -/
theorem apart_of_getLast?_not_mem {last : Char} (ends : part.getLast? = some last)
    (absent : last ∉ after) (before : List Char) : Apart part before after := by
  rintro lead tail rfl - more - begins
  obtain ⟨init, final, rfl⟩ := (List.eq_nil_or_concat tail).resolve_left more
  obtain rfl : final = last := by simpa [← List.append_assoc] using ends
  exact absent (begins.subset (by simp))

/-- A text in which `part` does not stand, and in which it does not begin at the end. -/
structure IsLead (part lead : List Char) : Prop where
  none : occurrences part lead = 0
  ends : ∀ tail ∈ lead.tails, tail ≠ [] → ¬ tail <+: part

instance (part lead : List Char) : Decidable (IsLead part lead) :=
  decidable_of_iff (occurrences part lead = 0 ∧ ∀ tail ∈ lead.tails, tail ≠ [] → ¬ tail <+: part)
    ⟨fun both => ⟨both.1, both.2⟩, fun leads => ⟨leads.none, leads.ends⟩⟩

/-- A lead has no occurrence of its own and begins none, so it can be put before a text without
adding any. -/
theorem IsLead.occurrences_append {lead : List Char} (leads : IsLead part lead)
    (cs : List Char) : occurrences part (lead ++ cs) = occurrences part cs := by
  have apart : Apart part lead cs := fun begins tail split some _ ends _ =>
    leads.ends begins ((List.mem_tails _ _).mpr ends) some ⟨tail, split.symm⟩
  rw [Text.occurrences_append apart, leads.none, Nat.zero_add]

/-- A character that `part` has not is part of no occurrence. -/
theorem occurrences_append_cons {stop : Char} (some : part ≠ []) (absent : stop ∉ part)
    (before after : List Char) : occurrences part (before ++ stop :: after) =
      occurrences part before + occurrences part after := by
  have apart : Apart part before (stop :: after) := apart_of_head? (by
    rintro c ⟨⟩
    exact fun mem => absent (List.mem_of_mem_tail mem)) before
  have begins : ¬ part <+: stop :: after := by
    rintro ⟨rest, whole⟩
    obtain ⟨first, others, rfl⟩ := List.exists_cons_of_ne_nil some
    obtain ⟨rfl, -⟩ := List.cons.inj whole
    exact absent List.mem_cons_self
  rw [occurrences_append apart, occurrences, if_neg begins, Nat.zero_add]

end Occurrences

end StyleGraph.Text
