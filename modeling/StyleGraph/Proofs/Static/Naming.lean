import Mathlib.Data.List.Nodup
import StyleGraph.Static.Naming
import StyleGraph.Static.Reference

/-!
# The parts of generated names

A generated name is a lead, which comes from the file and the binding, two underscores, and eight
digits of the hash. So names with different digits are different (`digits_of_name`), whatever they
are made for.

A generated name is written into selectors, custom properties and class attributes as it is. The
parts that come from the file and from the binding are not looked at, so the name is an identifier
only if these parts have the characters of one, and if the first does not begin like a number
(`isIdentifier_name_iff`). The hash does no harm.
-/

set_option autoImplicit false

namespace StyleGraph

open Hash

/-! ## The length of a hash -/

namespace Hash.Blake3

/-- A block is compressed to eight words. -/
theorem size_compress (chaining block : Array UInt32) (counter : Nat) (length flags : UInt32) :
    (compress chaining block counter length flags).size = 8 := by
  simp [compress]

/-- A chunk is, block by block. -/
theorem size_go (counter : Nat) (last start : UInt32) (chaining : Array UInt32)
    (blocks : List (List UInt8)) (full : chaining.size = 8) :
    (chunkValue.go counter last start chaining blocks).size = 8 := by
  induction blocks generalizing start chaining with
  | nil => exact full
  | cons block rest ih =>
    cases rest with
    | nil => exact size_compress _ _ _ _ _
    | cons next rest => exact ih 0 _ (size_compress _ _ _ _ _)

/-- So is a tree of chunks, whatever its shape is. -/
theorem size_treeValue (fuel counter : Nat) (last : UInt32) (chunks : List (List UInt8)) :
    (treeValue fuel counter last chunks).size = 8 := by
  unfold treeValue
  split
  · rfl
  · exact size_go _ _ _ _ _ rfl
  · exact size_go _ _ _ _ _ rfl
  · exact size_compress _ _ _ _ _

/-- A hash has 64 digits, two for each byte of eight words. -/
theorem length_hexChars (bytes : List UInt8) : (hexChars bytes).length = 64 := by
  have words : (hashWords bytes).toList.length = 8 := by
    rw [Array.length_toList]
    exact size_treeValue _ _ _ _
  have each (word : UInt32) : ((List.range 4).flatMap fun index =>
      let byte := (word.toNat / Number.twoTo (8 * index)) % 256
      [Text.hexDigit (byte / 16), Text.hexDigit (byte % 16)]).length = 8 := by
    simp [List.length_flatMap, List.map_const']
  rw [hexChars, List.length_flatMap]
  simp only [each, List.map_const', words]
  decide

end Hash.Blake3

namespace Static.Naming

/-- The first part of a name. -/
def lead (naming : Naming) (binding : Option String) : String :=
  match binding with
  | some binding => if binding.isEmpty then naming.stem else naming.stem ++ "_" ++ binding
  | none => naming.stem

/-- The digits that a name ends in. -/
def digits (naming : Naming) (ordinal : Nat) : List Char :=
  (Blake3.hexOfText (naming.hashed ordinal)).toList.take 8

/-- The three parts of a name: what leads, the underscores, and the digits. -/
theorem toList_name (naming : Naming) (ordinal : Nat) (binding : Option String) :
    (naming.name ordinal binding).toList =
      (naming.lead binding).toList ++ ('_' :: '_' :: naming.digits ordinal) := by
  have named : naming.name ordinal binding =
      naming.lead binding ++ "__" ++ String.ofList (naming.digits ordinal) := by
    cases binding <;> rfl
  have joint : "__".toList = ['_', '_'] := rfl
  rw [named, String.toList_append, String.toList_append, joint, String.toList_ofList,
    List.append_assoc, List.cons_append, List.cons_append, List.nil_append]

/-- A name ends in just eight digits, so its parts can be told apart from the end. -/
theorem length_digits (naming : Naming) (ordinal : Nat) : (naming.digits ordinal).length = 8 := by
  have length : (Blake3.hexOfText (naming.hashed ordinal)).toList.length = 64 := by
    rw [Blake3.hexOfText, String.toList_ofList]
    exact Blake3.length_hexChars _
  exact List.length_take_of_le (by omega)

/-- Names that are the same end in the same digits, also if they are made in different modules. -/
theorem digits_of_name {naming naming' : Naming} {one other : Nat}
    {binding binding' : Option String}
    (same : naming.name one binding = naming'.name other binding') :
    naming.digits one = naming'.digits other := by
  have chars := congrArg String.toList same
  rw [toList_name, toList_name] at chars
  have parts := (List.append_inj' chars (by simp [length_digits])).2
  exact (List.cons.inj (List.cons.inj parts).2).2

/-- The hash tells the running numbers below a bound apart. -/
def DistinctBelow (naming : Naming) (bound : Nat) : Prop :=
  ∀ one < bound, ∀ other < bound, naming.digits one = naming.digits other → one = other

/-- Whether the hash tells numbers apart can be seen from the list of digits. -/
theorem distinctBelow_of_nodup {naming : Naming} {bound : Nat}
    (nodup : ((List.range bound).map naming.digits).Nodup) : naming.DistinctBelow bound :=
  fun _ below _ also => List.inj_on_of_nodup_map nodup (List.mem_range.mpr below)
    (List.mem_range.mpr also)

/-- Where the hash tells running numbers apart, names with different ones are different. -/
theorem DistinctBelow.eq_of_name {naming : Naming} {bound one other : Nat}
    (distinct : naming.DistinctBelow bound) (below : one < bound) (also : other < bound)
    {binding binding' : Option String}
    (same : naming.name one binding = naming.name other binding') : one = other :=
  distinct one below other also (digits_of_name same)

/-- The names for some bindings, one after the other, numbered from the given number on. -/
def numbered (naming : Naming) (ordinal : Nat) (bindings : List (Option String)) : List String :=
  (bindings.zipIdx ordinal).map fun minted => naming.name minted.2 minted.1

/-- There is a name for each binding. -/
theorem length_numbered (naming : Naming) (ordinal : Nat) (bindings : List (Option String)) :
    (naming.numbered ordinal bindings).length = bindings.length := by
  rw [numbered, List.length_map, List.length_zipIdx]

/-- The numbers go on where those of the names before them end. -/
theorem numbered_append (naming : Naming) (ordinal : Nat) (bindings more : List (Option String)) :
    naming.numbered ordinal (bindings ++ more) =
      naming.numbered ordinal bindings ++ naming.numbered (ordinal + bindings.length) more := by
  rw [numbered, List.zipIdx_append, List.map_append]
  rfl

end Static.Naming

/-! ## Identifiers -/

namespace Static

/-- The characters that an identifier may have without escapes. -/
def isIdentifierChar (c : Char) : Bool := isNameChar c || 128 ≤ c.toNat

/-- A text has only such characters. -/
def HasIdentifierChars (text : String) : Prop := ∀ c ∈ text.toList, isIdentifierChar c = true

/-- Whether a text begins with a digit, or with a hyphen and a digit. -/
def beginsNumeric (cs : List Char) : Bool :=
  (if cs.head? = some '-' then cs.tail else cs).head?.any Char.isDigit

/-- A text is one identifier without escapes. -/
structure IsIdentifier (text : String) : Prop where
  filled : text ≠ ""
  chars : HasIdentifierChars text
  start : beginsNumeric text.toList = false

/-- Whether a text begins like a number is not changed by an underscore behind it. -/
theorem beginsNumeric_append_underscore (cs rest : List Char) :
    beginsNumeric (cs ++ '_' :: rest) = beginsNumeric cs := by
  cases cs with
  | nil => rfl
  | cons c cs =>
    by_cases hyphen : c = '-'
    · subst hyphen
      cases cs <;> rfl
    · simp [beginsNumeric, hyphen]

/-- A digit of a hash may stand in an identifier. -/
theorem isIdentifierChar_hexDigit : ∀ n < 16, isIdentifierChar (Text.hexDigit n) = true := by decide

/-- So may all digits of a hash. -/
theorem isIdentifierChar_of_mem_hexChars {bytes : List UInt8} {c : Char}
    (mem : c ∈ Blake3.hexChars bytes) : isIdentifierChar c = true := by
  obtain ⟨word, -, mem⟩ := List.mem_flatMap.mp mem
  obtain ⟨index, -, mem⟩ := List.mem_flatMap.mp mem
  simp only [List.mem_cons, List.not_mem_nil, or_false] at mem
  rcases mem with rfl | rfl
  · exact isIdentifierChar_hexDigit _ (by omega)
  · exact isIdentifierChar_hexDigit _ (by omega)

namespace Naming

variable (naming : Naming) (ordinal : Nat) (binding : Option String)

/-- The digits of a name are some of these. -/
theorem isIdentifierChar_of_mem_digits {c : Char} (mem : c ∈ naming.digits ordinal) :
    isIdentifierChar c = true := by
  have listed := List.mem_of_mem_take mem
  rw [Blake3.hexOfText, String.toList_ofList] at listed
  exact isIdentifierChar_of_mem_hexChars listed

/-- The lead of a name is the stem, or the stem and the binding. -/
theorem lead_eq : naming.lead binding = naming.stem ∧ binding.getD "" = "" ∨
    naming.lead binding = naming.stem ++ "_" ++ binding.getD "" := by
  unfold lead
  split
  next text =>
    split
    next empty => exact .inl ⟨rfl, String.isEmpty_iff.mp empty⟩
    next => exact .inr rfl
  next => exact .inl ⟨rfl, rfl⟩

/-- A name is the stem, an underscore and more, which has the characters of an identifier just if
the binding has. -/
theorem exists_toList_name : ∃ rest,
    (naming.name ordinal binding).toList = naming.stem.toList ++ '_' :: rest ∧
      ((∀ c ∈ rest, isIdentifierChar c = true) ↔ HasIdentifierChars (binding.getD "")) := by
  have digits : ∀ c ∈ naming.digits ordinal, isIdentifierChar c = true :=
    fun c => naming.isIdentifierChar_of_mem_digits ordinal
  have underscore : isIdentifierChar '_' = true := by decide
  rw [toList_name]
  rcases naming.lead_eq binding with ⟨bare, none⟩ | bound
  · refine ⟨'_' :: naming.digits ordinal, by rw [bare], ?_⟩
    rw [HasIdentifierChars, none, List.forall_mem_cons]
    exact ⟨fun _ => nofun, fun _ => ⟨underscore, digits⟩⟩
  · refine ⟨(binding.getD "").toList ++ '_' :: '_' :: naming.digits ordinal, ?_, ?_⟩
    · rw [bound]
      simp
    · rw [HasIdentifierChars, List.forall_mem_append, List.forall_mem_cons, List.forall_mem_cons]
      exact ⟨And.left, fun part => ⟨part, underscore, underscore, digits⟩⟩

/-- **A generated name is an identifier** just if the stem of the file and the binding have only
characters of identifiers, and the stem does not begin like a number. -/
theorem isIdentifier_name_iff : IsIdentifier (naming.name ordinal binding) ↔
    HasIdentifierChars naming.stem ∧ beginsNumeric naming.stem.toList = false ∧
      HasIdentifierChars (binding.getD "") := by
  obtain ⟨rest, written, chars⟩ := naming.exists_toList_name ordinal binding
  have underscore : isIdentifierChar '_' = true := by decide
  have all : HasIdentifierChars (naming.name ordinal binding) ↔
      HasIdentifierChars naming.stem ∧ ∀ c ∈ rest, isIdentifierChar c = true := by
    rw [HasIdentifierChars, written, List.forall_mem_append, List.forall_mem_cons]
    simp only [underscore, true_and]
    rfl
  have filled : naming.name ordinal binding ≠ "" := by
    intro empty
    rw [empty] at written
    simp at written
  constructor
  · rintro ⟨-, named, start⟩
    rw [written, beginsNumeric_append_underscore] at start
    exact ⟨(all.mp named).1, start, chars.mp (all.mp named).2⟩
  · rintro ⟨stem, start, part⟩
    refine ⟨filled, all.mpr ⟨stem, chars.mpr part⟩, ?_⟩
    rw [written, beginsNumeric_append_underscore, start]

end Naming

end Static

end StyleGraph
