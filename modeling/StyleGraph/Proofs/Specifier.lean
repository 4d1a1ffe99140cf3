import StyleGraph.Proofs.Text.Cut
import StyleGraph.Specifier

/-!
# Specifiers of paths

A scheme begins with a letter, so what begins with a slash or a dot has none
(`scheme?_of_isAlpha_eq_false`). With that the kind of a specifier that names a path is decided by
how it begins, and without a query it is its own path.
-/

set_option autoImplicit false

namespace StyleGraph.Specifier

/-- What does not begin with a letter has no scheme. -/
theorem scheme?_of_isAlpha_eq_false {c : Char} (letterless : c.isAlpha = false)
    (rest : List Char) : scheme? (c :: rest) = none := by
  unfold scheme?
  by_cases colon : c = ':'
  · simp [Text.cutFirst, colon]
  · rcases cut : Text.cutFirst ':' rest with ⟨before, _ | after⟩ <;>
      simp [Text.cutFirst, colon, cut, letterless]

/-- Of a path from the root only the path counts: it has no scheme and is not relative. A scheme
begins with a letter, and a relative path with a dot. -/
theorem classify_of_isAbsolute {path : String} (absolute : Path.isAbsolute path = true) :
    classify path = .absolute := by
  obtain ⟨rest, chars⟩ : ∃ rest, path.toList = '/' :: rest := by
    unfold Path.isAbsolute at absolute
    cases chars : path.toList with
    | nil => rw [chars] at absolute; cases absolute
    | cons c rest =>
      rw [chars] at absolute
      exact ⟨rest, by simpa using absolute⟩
  have rooted : isRelative ('/' :: rest) = false := by
    simp [isRelative, Text.startsWith, Text.stripStart?]
  have letterless : '/'.isAlpha = false := by decide
  simp only [classify, chars, scheme?_of_isAlpha_eq_false letterless, rooted, Bool.false_eq_true,
    if_false, absolute, if_true]

/-- What begins with a dot or two and a slash is relative. A dot is no letter, so a scheme is ruled
out first. -/
theorem classify_of_startsWith {specifier : String}
    (begins : (Text.startsWith "./".toList specifier.toList ||
      Text.startsWith "../".toList specifier.toList) = true) : classify specifier = .relative := by
  obtain ⟨rest, chars⟩ : ∃ rest, specifier.toList = '.' :: rest := by
    rcases Bool.or_eq_true_iff.mp begins with begins | begins
    · obtain ⟨rest, same⟩ := Text.startsWith_iff.mp begins
      exact ⟨'/' :: rest, same⟩
    · obtain ⟨rest, same⟩ := Text.startsWith_iff.mp begins
      exact ⟨'.' :: '/' :: rest, same⟩
  have relative : isRelative specifier.toList = true := by
    unfold isRelative
    rw [Bool.or_assoc]
    exact Bool.or_eq_true_iff.mpr (.inl begins)
  have letterless : '.'.isAlpha = false := by decide
  rw [chars] at relative
  simp only [classify, chars, scheme?_of_isAlpha_eq_false letterless, relative, if_true]

/-- Without a query a specifier is its own path. -/
theorem splitQuery_of_not_mem {specifier : String} (plain : '?' ∉ specifier.toList) :
    splitQuery specifier = (specifier, "") := by
  have cut : Text.cutQuery (specifier.toList ++ []) = (specifier.toList, []) :=
    Text.cutQuery_append plain (.inl rfl)
  rw [List.append_nil] at cut
  simp only [splitQuery, cut, String.ofList_toList, String.ofList_nil]

end StyleGraph.Specifier
