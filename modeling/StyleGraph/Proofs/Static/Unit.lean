import StyleGraph.Static.Property

/-!
# Vendor prefixes and units

A property with the prefix of a vendor is spelled with the vendor's mark before it
(`toList_hyphenate_vendor`). The properties whose numbers take no unit are listed by their full
names, and no name on the list has a vendor's mark. So the number of a property with a prefix always
gets its unit, and a prefix makes no difference just to properties that are not on the list
(`hasUnit_vendor_iff`).
-/

set_option autoImplicit false

namespace StyleGraph.Static

/-- The vendors whose prefixes begin a property. -/
inductive Vendor
  | webkit
  | moz
  | o
  | ms
  deriving DecidableEq, Repr

namespace Vendor

/-- The prefix as it begins the key of a style object. -/
def key : Vendor → String
  | webkit => "Webkit"
  | moz => "Moz"
  | o => "O"
  | ms => "ms"

/-- The prefix as it begins a property in hyphenated spelling. -/
def mark : Vendor → String
  | webkit => "-webkit-"
  | moz => "-moz-"
  | o => "-o-"
  | ms => "-ms-"

end Vendor

/-- A key with its first letter as a capital. -/
def capitalized (key : String) : String :=
  match key.toList with
  | [] => ""
  | first :: rest => String.ofList (first.toUpper :: rest)

/-- A key that begins with a small letter, as those without a prefix do. -/
def IsPlainKey (key : String) : Prop := key.toList.head?.any Char.isLower = true

instance (key : String) : Decidable (IsPlainKey key) := inferInstanceAs (Decidable (_ = true))

/-- A plain key begins with a small letter, which a vendor's prefix turns into a capital. -/
theorem IsPlainKey.exists_cons {key : String} (plain : IsPlainKey key) :
    ∃ first rest, key.toList = first :: rest ∧ first.isLower = true := by
  unfold IsPlainKey at plain
  cases chars : key.toList with
  | nil => rw [chars] at plain; cases plain
  | cons first rest =>
    rw [chars] at plain
    exact ⟨first, rest, rfl, plain⟩

/-! ## Spelling -/

/-- A small letter is spelled as it is, and as a capital it is spelled with a hyphen before it. -/
theorem hyphenChar_of_isLower {c : Char} (lower : c.isLower = true) :
    c.isUpper = false ∧ hyphenChar c = [c] ∧ hyphenChar c.toUpper = ['-', c] := by
  have letters : ∀ n ≤ 122, 97 ≤ n → (Char.ofNat n).isUpper = false ∧
      hyphenChar (Char.ofNat n) = [Char.ofNat n] ∧
      hyphenChar (Char.ofNat n).toUpper = ['-', Char.ofNat n] := by
    decide
  have bounds : (decide (97 ≤ c.val) && decide (c.val ≤ 122)) = true := lower
  rw [Bool.and_eq_true, decide_eq_true_eq, decide_eq_true_eq] at bounds
  rw [← Char.ofNat_toNat c]
  exact letters c.toNat bounds.2 bounds.1

/-- How a key is spelled that does not begin with a hyphen. The only letter of a key has to be
small, since a capital gets no hyphen there. -/
theorem toList_hyphenate {key : String} {first : Char} {rest : List Char}
    (chars : key.toList = first :: rest) (unled : first ≠ '-')
    (short : rest = [] → first.isUpper = false) :
    (hyphenate key).toList =
      if Text.startsWith "ms-".toList (key.toList.flatMap hyphenChar) then
        '-' :: key.toList.flatMap hyphenChar
      else key.toList.flatMap hyphenChar := by
  unfold hyphenate
  rw [chars]
  cases rest with
  | nil =>
    have small : hyphenChar first = [first] := if_neg (by simp [short rfl])
    have same : first.toLower = first := dif_neg (of_decide_eq_false (short rfl))
    have bare : Text.startsWith "ms-".toList [first] = false := by
      simp [Text.startsWith, Text.stripStart?]
    simpa [small, same] using bare
  | cons second rest =>
    split
    next pattern => cases pattern
    next pattern => cases pattern; exact absurd rfl unled
    next => exact String.toList_ofList

/-- **A prefix is spelled as the mark of its vendor**, before the property that it is put to. The
first letter of the property is a capital behind the prefix, so it gets a hyphen in front. -/
theorem toList_hyphenate_vendor (vendor : Vendor) {key : String} (plain : IsPlainKey key) :
    (hyphenate (vendor.key ++ capitalized key)).toList =
      vendor.mark.toList ++ key.toList.flatMap hyphenChar := by
  obtain ⟨first, rest, chars, lower⟩ := plain.exists_cons
  obtain ⟨-, same, capital⟩ := hyphenChar_of_isLower lower
  have joined : (vendor.key ++ capitalized key).toList =
      vendor.key.toList ++ first.toUpper :: rest := by
    rw [String.toList_append, capitalized, chars, String.toList_ofList]
  have spelled : (vendor.key.toList ++ first.toUpper :: rest).flatMap hyphenChar =
      vendor.key.toList.flatMap hyphenChar ++ '-' :: key.toList.flatMap hyphenChar := by
    rw [List.flatMap_append, List.flatMap_cons, capital, chars, List.flatMap_cons, same]
    rfl
  generalize key.toList.flatMap hyphenChar = property at spelled ⊢
  cases vendor
  all_goals
    rw [toList_hyphenate joined (by decide) nofun, joined, spelled]
    rfl

/-! ## Units -/

/-- A property that is no custom property is looked up in the list. A custom property begins with
two hyphens, which the first two characters are not. -/
theorem isUnitless_of_chars {property : String} {first : Char} {rest : List Char}
    (chars : property.toList = first :: rest) (unled : first = '-' → rest.head? ≠ some '-') :
    isUnitless property = unitlessProperties.contains property := by
  have named : Text.startsWith ['-', '-'] property.toList = false := by
    rw [chars]
    cases rest with
    | nil => simp [Text.startsWith, Text.stripStart?]
    | cons second rest =>
      have apart : first = '-' → second ≠ '-' := by simpa using unled
      simp only [Text.startsWith, Text.stripStart?]
      split
      next same =>
        rw [if_neg fun also => apart same.symm also.symm]
        rfl
      next => rfl
  rw [isUnitless, named, Bool.false_or]

/-- **No property with a prefix is on the list.** -/
theorem isUnitless_vendor (vendor : Vendor) {key : String} (plain : IsPlainKey key) :
    isUnitless (hyphenate (vendor.key ++ capitalized key)) = false := by
  have unled : ∀ listed ∈ unitlessProperties, listed.toList.head? ≠ some '-' := by
    decide +kernel
  obtain ⟨letter, rest, named, chars⟩ : ∃ letter rest, letter ≠ '-' ∧
      (hyphenate (vendor.key ++ capitalized key)).toList = '-' :: letter :: rest := by
    rw [toList_hyphenate_vendor vendor plain]
    cases vendor
    all_goals exact ⟨_, _, by decide, rfl⟩
  rw [isUnitless_of_chars chars (by simpa using named), List.contains_eq_mem,
    decide_eq_false_iff_not]
  exact fun listed => unled _ listed (by rw [chars]; rfl)

/-- A property without a prefix takes no unit just if it is on the list. -/
theorem isUnitless_plain {key : String} (plain : IsPlainKey key) :
    isUnitless (hyphenate key) = unitlessProperties.contains (hyphenate key) := by
  obtain ⟨first, rest, chars, lower⟩ := plain.exists_cons
  have unled : first ≠ '-' := fun same => by rw [same] at lower; cases lower
  obtain ⟨small, same, -⟩ := hyphenChar_of_isLower lower
  have spelled : key.toList.flatMap hyphenChar = first :: rest.flatMap hyphenChar := by
    rw [chars, List.flatMap_cons, same, List.singleton_append]
  have formed := toList_hyphenate chars unled fun _ => small
  rw [spelled] at formed
  split at formed
  · exact isUnitless_of_chars formed (by simpa using unled)
  · exact isUnitless_of_chars formed fun same => absurd same unled

/-- A number is written without letters, but for those of infinity. So a number that is written out
does not end in `px` by itself. -/
theorem not_mem_positional (digits : Nat) (power : Int) :
    'x' ∉ Number.Binary64.positional digits power := by
  have decimal : 'x' ∉ Nat.toDigits 10 digits := fun mem =>
    absurd (Nat.isDigit_of_mem_toDigits (by decide) (by decide) mem) (by decide)
  unfold Number.Binary64.positional
  dsimp only
  split
  · simp [decimal]
  · split
    · refine List.not_mem_append (fun mem => decimal (List.mem_of_mem_take mem)) ?_
      exact List.not_mem_cons_of_ne_of_not_mem (by decide) fun mem =>
        decimal (List.mem_of_mem_drop mem)
    · simp [decimal]

/-- No number is written with an `x`. -/
theorem not_mem_render (value : Number.Binary64) : 'x' ∉ value.render.toList := by
  have sign : ∀ negative : Bool, 'x' ∉ (if negative then "-" else "").toList := by decide
  unfold Number.Binary64.render
  dsimp only
  split
  · rw [String.toList_append, List.mem_append]
    exact fun mem => mem.elim (sign _) (by decide)
  · decide
  · rw [String.toList_append, List.mem_append, String.toList_ofList]
    exact fun mem => mem.elim (sign _) (not_mem_positional _ _)

/-- A value has the unit of numbers behind it. -/
def HasUnit (value : String) : Prop := ['p', 'x'] <:+ value.toList

instance (value : String) : Decidable (HasUnit value) := inferInstanceAs (Decidable (_ <:+ _))

/-- A number alone has no unit. -/
theorem not_hasUnit_render (value : Number.Binary64) : ¬HasUnit value.render := fun unit =>
  not_mem_render value (unit.subset (by decide))

/-- The number of a property has a unit just if the property takes one. -/
theorem hasUnit_numericValue_iff {value : Number.Binary64} (given : value.isZero = false)
    (property : String) : HasUnit (numericValue property value) ↔ isUnitless property = false := by
  unfold numericValue
  rw [given, Bool.false_or]
  cases isUnitless property with
  | true =>
    rw [if_pos rfl]
    exact iff_of_false (not_hasUnit_render value) nofun
  | false =>
    rw [if_neg Bool.false_ne_true, HasUnit, String.toList_append]
    exact iff_of_true (List.suffix_append _ _) rfl

/-- **A prefix and the unit of a number.** The number of a property with the prefix of a vendor
always gets its unit. So it has one with the prefix just if it has one without, for all properties
but those on the list of properties whose numbers take no unit. -/
theorem hasUnit_vendor_iff (vendor : Vendor) {key : String} (plain : IsPlainKey key)
    {value : Number.Binary64} (given : value.isZero = false) :
    numericValue (hyphenate (vendor.key ++ capitalized key)) value = value.render ++ "px" ∧
      ((HasUnit (numericValue (hyphenate (vendor.key ++ capitalized key)) value) ↔
          HasUnit (numericValue (hyphenate key) value)) ↔
        hyphenate key ∉ unitlessProperties) := by
  have prefixed := isUnitless_vendor vendor plain
  constructor
  · rw [numericValue, given, prefixed]
    rfl
  · rw [hasUnit_numericValue_iff given, hasUnit_numericValue_iff given, prefixed,
      isUnitless_plain plain, List.contains_eq_mem, decide_eq_false_iff_not]
    exact ⟨fun same => same.mp rfl, fun unlisted => iff_of_true rfl unlisted⟩

/-- The number of lines, or of pixels. -/
def lineCount : Number.Binary64 := ⟨false, Number.Binary64.ofNat 2⟩

/-- The statement at a property that takes a length, where the prefixed form gets its unit like the
plain one. -/
theorem hasUnit_vendor_iff_columnGap :
    IsPlainKey "columnGap" ∧ lineCount.isZero = false ∧
      numericValue (hyphenate (Vendor.moz.key ++ capitalized "columnGap")) lineCount =
        lineCount.render ++ "px" ∧
      ((HasUnit (numericValue (hyphenate (Vendor.moz.key ++ capitalized "columnGap")) lineCount) ↔
          HasUnit (numericValue (hyphenate "columnGap") lineCount)) ↔
        hyphenate "columnGap" ∉ unitlessProperties) := by
  have plain : IsPlainKey "columnGap" := by decide
  have given : lineCount.isZero = false := by decide +kernel
  exact ⟨plain, given, hasUnit_vendor_iff .moz plain given⟩

/-- **Lines are counted without a unit**, but with the prefix of a vendor they get one. -/
theorem numericValue_lineClamp :
    IsPlainKey "lineClamp" ∧ lineCount.isZero = false ∧
      numericValue (hyphenate (Vendor.webkit.key ++ capitalized "lineClamp")) lineCount = "2px" ∧
      numericValue (hyphenate "lineClamp") lineCount = "2" ∧
      ¬(HasUnit (numericValue (hyphenate (Vendor.webkit.key ++ capitalized "lineClamp"))
          lineCount) ↔
        HasUnit (numericValue (hyphenate "lineClamp") lineCount)) := by
  have prefixed : numericValue (hyphenate (Vendor.webkit.key ++ capitalized "lineClamp"))
      lineCount = "2px" := by
    decide +kernel
  have bare : numericValue (hyphenate "lineClamp") lineCount = "2" := by decide +kernel
  refine ⟨by decide, by decide +kernel, prefixed, bare, fun same => ?_⟩
  rw [prefixed, bare] at same
  exact absurd (same.mp (by decide)) (by decide)

end StyleGraph.Static
