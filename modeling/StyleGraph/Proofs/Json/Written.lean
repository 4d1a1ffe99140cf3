import Mathlib.Data.List.DropRight
import StyleGraph.Json.Reader
import StyleGraph.Proofs.Text.Cut

/-!
# Reading written JSON

A quoted text is read back as the text, whatever its characters are (`readValue_quoted`): each of
them is written in a form that the reader takes for that character alone. So an object of texts is
read back as its members, in their order (`parse_written`), with any blanks before keys, before
values and before the closing brace.
-/

set_option autoImplicit false

namespace StyleGraph.Json.Reader

/-! ## Strings -/

/-- The digits written for a code unit are read back. -/
theorem hexValue?_hexDigit : ∀ n < 16, Text.hexValue? (Text.hexDigit n) = some n := by
  decide

/-- The digits of a control character are read back. -/
theorem hex4?_control {n : Nat} (control : n < 0x20) (rest : List Char) :
    hex4? ('0' :: '0' :: Text.hexDigit (n / 16) :: Text.hexDigit (n % 16) :: rest) =
      some (n, rest) := by
  have zero : Text.hexValue? '0' = some 0 := by decide
  have high := hexValue?_hexDigit (n / 16) (by omega)
  have low := hexValue?_hexDigit (n % 16) (by omega)
  have value : ((0 * 16 + 0) * 16 + n / 16) * 16 + n % 16 = n := by omega
  simp only [hex4?, zero, high, low, Option.bind_eq_bind, Option.bind_some, value]

/-- What is written for a character is read as that character. The cases are those of the escape;
one character costs one step of the fuel whatever its escape is. -/
theorem readString_escapeChar (fuel : Nat) (acc : List Char) (c : Char) (rest : List Char) :
    readString (fuel + 1) acc (Text.escapeChar c ++ rest) = readString fuel (c :: acc) rest := by
  unfold Text.escapeChar
  split
  case h_8 _ quote slash _ _ _ _ _ =>
    split
    next control =>
      have low : ¬ 0xd800 ≤ c.toNat := by omega
      have mid : ¬ 0xdc00 ≤ c.toNat := by omega
      simp [readString, hex4?_control control, low, mid]
    next printed =>
      have quoteless : c ≠ '"' := quote
      have slashless : c ≠ '\\' := slash
      simp [readString, quoteless, slashless, printed]
  all_goals simp [readString]

/-- A text written with its escapes is read back up to the closing quote. The fuel needed is its
length, since an escape is one step of the reader. -/
theorem readString_escaped {fuel : Nat} {acc cs : List Char} (enough : cs.length < fuel)
    (rest : List Char) :
    readString fuel acc (cs.flatMap Text.escapeChar ++ '"' :: rest) =
      .ok (String.ofList (acc.reverse ++ cs), rest) := by
  induction cs generalizing fuel acc with
  | nil =>
    obtain ⟨fuel, rfl⟩ := Nat.exists_eq_add_of_lt enough
    simp [readString]
  | cons c cs ih =>
    obtain ⟨fuel, rfl⟩ := Nat.exists_eq_add_of_lt enough
    rw [List.flatMap_cons, List.append_assoc, readString_escapeChar, ih (by simp; omega)]
    simp

/-- Escaping never shortens a text, so the fuel that is enough for what is written is enough for
what is read. -/
theorem length_le_length_escaped (cs : List Char) :
    cs.length ≤ (cs.flatMap Text.escapeChar).length := by
  have filled (c : Char) : 1 ≤ (Text.escapeChar c).length := by
    unfold Text.escapeChar
    repeat' split
    all_goals simp
  induction cs with
  | nil => exact Nat.le_refl _
  | cons c cs ih =>
    rw [List.flatMap_cons, List.length_append, List.length_cons]
    have := filled c
    omega

/-- A string is read to its closing quote, with as many steps as the text behind its opening quote
has characters. -/
theorem readString_quoted (cs rest : List Char) :
    let text := cs.flatMap Text.escapeChar ++ '"' :: rest
    readString (text.length + 1) [] text = .ok (String.ofList cs, rest) := by
  intro text
  have := length_le_length_escaped cs
  refine readString_escaped ?_ rest
  rw [List.length_append]
  omega

/-! ## Values -/

section

variable {blanks : List Char} (blank : ∀ c ∈ blanks, isSpace c = true)

include blank

/-- Blanks before what is no blank are passed over. -/
theorem skip_append {c : Char} (solid : isSpace c = false) (rest : List Char) :
    skip (blanks ++ c :: rest) = c :: rest := by
  rw [skip, List.dropWhile_append_of_pos blank, List.dropWhile_cons_of_neg (by simp [solid])]

/-- **A quoted text is read as the text.** -/
theorem readValue_quoted (fuel depth : Nat) (value : String) (rest : List Char) :
    readValue (fuel + 1) depth (blanks ++ (Text.quoteChars value.toList ++ rest)) =
      .ok (.str value, rest) := by
  have opened : blanks ++ (Text.quoteChars value.toList ++ rest) =
      blanks ++ '"' :: (value.toList.flatMap Text.escapeChar ++ '"' :: rest) := by
    simp [Text.quoteChars]
  have read := readString_quoted value.toList rest
  rw [opened, readValue, skip_append blank (by decide)]
  simp only [read, String.ofList_toList]
  rfl

end

/-! ## Objects -/

section

variable {lead gap close : List Char} (leadBlank : ∀ c ∈ lead, isSpace c = true)
  (gapBlank : ∀ c ∈ gap, isSpace c = true) (closeBlank : ∀ c ∈ close, isSpace c = true)

/-- A member as it is written, with blanks before its key and before its value. -/
def memberChars (lead gap : List Char) (entry : String × String) : List Char :=
  lead ++ (Text.quoteChars entry.1.toList ++ ':' :: (gap ++ Text.quoteChars entry.2.toList))

/-- A member of an object of texts. -/
def member (entry : String × String) : String × Json := (entry.1, .str entry.2)

include leadBlank gapBlank in
/-- One member is read, and what follows it decides whether there are more. -/
theorem readMembers_memberChars (fuel depth : Nat) (acc : List (String × Json))
    (entry : String × String) (rest : List Char) :
    readMembers (fuel + 2) depth acc (memberChars lead gap entry ++ rest) =
      match skip rest with
      | ',' :: rest => readMembers (fuel + 1) depth (member entry :: acc) rest
      | '\x7d' :: rest => .ok ((member entry :: acc).reverse, rest)
      | _ => refuse := by
  have opened : memberChars lead gap entry ++ rest = lead ++ '"' ::
      (entry.1.toList.flatMap Text.escapeChar ++ '"' ::
        ':' :: (gap ++ (Text.quoteChars entry.2.toList ++ rest))) := by
    simp [memberChars, Text.quoteChars]
  have key := readString_quoted entry.1.toList
    (':' :: (gap ++ (Text.quoteChars entry.2.toList ++ rest)))
  have colon : skip (':' :: (gap ++ (Text.quoteChars entry.2.toList ++ rest))) =
      ':' :: (gap ++ (Text.quoteChars entry.2.toList ++ rest)) := rfl
  have value := readValue_quoted gapBlank fuel depth entry.2 rest
  rw [opened, readMembers, skip_append leadBlank (by decide)]
  simp only [key, bind, Except.bind, colon, value, String.ofList_toList]
  rfl

/-- The members of an object as they are written, with commas between them. -/
def membersChars (lead gap : List Char) (entries : List (String × String)) : List Char :=
  Text.joinWith [','] (entries.map (memberChars lead gap))

/-- The second entry and all later ones come after a comma. -/
theorem membersChars_cons_cons (entry next : String × String) (entries : List (String × String)) :
    membersChars lead gap (entry :: next :: entries) =
      memberChars lead gap entry ++ ',' :: membersChars lead gap (next :: entries) := by
  simp [membersChars, Text.joinWith]

/-- Every entry takes at least one character, so the fuel is enough here too. -/
theorem length_le_length_membersChars (entries : List (String × String)) :
    entries.length ≤ (membersChars lead gap entries).length := by
  have filled (entry : String × String) : 1 ≤ (memberChars lead gap entry).length := by
    simp only [memberChars, Text.quoteChars, List.length_append, List.length_cons]
    omega
  induction entries with
  | nil => exact Nat.zero_le _
  | cons entry entries ih =>
    cases entries with
    | nil => exact filled entry
    | cons next entries =>
      have := filled entry
      simp only [membersChars_cons_cons, List.length_append, List.length_cons] at ih ⊢
      omega

include leadBlank gapBlank closeBlank in
/-- Entries written as members are read back in their order up to the closing brace. By induction on
the entries, of which the last one is followed by the brace and the others by a comma. -/
theorem readMembers_written {fuel depth : Nat} {acc : List (String × Json)}
    {entries : List (String × String)} (nonempty : entries ≠ []) (enough : entries.length < fuel)
    (rest : List Char) :
    readMembers fuel depth acc (membersChars lead gap entries ++ (close ++ '\x7d' :: rest)) =
      .ok (acc.reverse ++ entries.map member, rest) := by
  induction entries generalizing fuel acc with
  | nil => exact absurd rfl nonempty
  | cons entry entries ih =>
    obtain ⟨fuel, rfl⟩ : ∃ more, fuel = more + 2 :=
      ⟨fuel - 2, by simp only [List.length_cons] at enough; omega⟩
    cases entries with
    | nil =>
      have closed : skip (close ++ '\x7d' :: rest) = '\x7d' :: rest :=
        skip_append closeBlank (by decide) rest
      have single : membersChars lead gap [entry] = memberChars lead gap entry := rfl
      rw [single, readMembers_memberChars leadBlank gapBlank, closed]
      simp
    | cons next entries =>
      have more : skip (',' :: (membersChars lead gap (next :: entries) ++
          (close ++ '\x7d' :: rest))) = ',' :: (membersChars lead gap (next :: entries) ++
          (close ++ '\x7d' :: rest)) := rfl
      rw [membersChars_cons_cons, List.append_assoc, List.cons_append,
        readMembers_memberChars leadBlank gapBlank, more]
      simp only
      rw [ih (List.cons_ne_nil _ _) (by simp only [List.length_cons] at enough ⊢; omega)]
      simp

/-- Blanks before a member make no difference. -/
theorem readMembers_skip (fuel depth : Nat) (acc : List (String × Json)) (cs : List Char) :
    readMembers fuel depth acc (skip cs) = readMembers fuel depth acc cs := by
  cases fuel with
  | zero => rfl
  | succ fuel =>
    have again : skip (skip cs) = skip cs := List.dropWhile_idempotent isSpace cs
    rw [readMembers, readMembers, again]

/-- Members begin with the quote of a key. -/
theorem exists_membersChars_eq (entry : String × String) (entries : List (String × String)) :
    ∃ more, membersChars lead gap (entry :: entries) = lead ++ '"' :: more := by
  let behindQuote := entry.1.toList.flatMap Text.escapeChar ++
    ('"' :: ':' :: (gap ++ Text.quoteChars entry.2.toList))
  have member : memberChars lead gap entry = lead ++ '"' :: behindQuote := by
    simp [memberChars, Text.quoteChars, behindQuote]
  cases entries with
  | nil => exact ⟨behindQuote, member⟩
  | cons next entries =>
    refine ⟨behindQuote ++ ',' :: membersChars lead gap (next :: entries), ?_⟩
    rw [membersChars_cons_cons, member, List.append_assoc, List.cons_append]

include leadBlank gapBlank closeBlank in
/-- **An object of texts is read as its members**, in their order. The reader needs fuel for each
member and one step for the object; blanks around the members are passed over. -/
theorem readValue_written {fuel depth : Nat} {entries : List (String × String)}
    (enough : entries.length < fuel) (rest : List Char) :
    readValue (fuel + 1) (depth + 1)
        ('\x7b' :: (membersChars lead gap entries ++ (close ++ '\x7d' :: rest))) =
      .ok (.obj (entries.map member), rest) := by
  have opened (more : List Char) : skip ('\x7b' :: more) = '\x7b' :: more := rfl
  rw [readValue, opened]
  cases entries with
  | nil =>
    have closed : skip (membersChars lead gap [] ++ (close ++ '\x7d' :: rest)) =
        '\x7d' :: rest := skip_append closeBlank (by decide) rest
    simp only [closed]
    rfl
  | cons entry entries =>
    have read : readMembers fuel depth []
        (membersChars lead gap (entry :: entries) ++ (close ++ '\x7d' :: rest)) =
          .ok ([].reverse ++ (entry :: entries).map member, rest) :=
      readMembers_written leadBlank gapBlank closeBlank (List.cons_ne_nil entry entries) enough rest
    obtain ⟨more, first⟩ : ∃ more, membersChars lead gap (entry :: entries) = lead ++ '"' :: more :=
      exists_membersChars_eq entry entries
    have key : skip (membersChars lead gap (entry :: entries) ++ (close ++ '\x7d' :: rest)) =
        '"' :: (more ++ (close ++ '\x7d' :: rest)) := by
      rw [first, List.append_assoc, List.cons_append, skip_append leadBlank (by decide)]
    rw [← readMembers_skip, key] at read
    simp only [key]
    -- A quote is no closing brace, so members are read.
    split
    next closing => simp at closing
    next =>
      rw [read]
      rfl

end

end StyleGraph.Json.Reader

namespace StyleGraph.Json

open Reader

/-- **The text of an object of texts is parsed as the object.** The blanks around members are of the
form's own choosing, so every layout of the object is read alike. -/
theorem parse_written {lead gap close : List Char} (leadBlank : ∀ c ∈ lead, isSpace c = true)
    (gapBlank : ∀ c ∈ gap, isSpace c = true) (closeBlank : ∀ c ∈ close, isSpace c = true)
    (entries : List (String × String)) :
    parse (String.ofList ('\x7b' :: (membersChars lead gap entries ++ (close ++ ['\x7d'])))) =
      .ok (.obj (entries.map member)) := by
  have enough : entries.length <
      2 * ('\x7b' :: (membersChars lead gap entries ++ (close ++ ['\x7d']))).length + 1 := by
    have : entries.length ≤ (membersChars lead gap entries).length :=
      length_le_length_membersChars entries
    simp only [List.length_cons, List.length_append]
    omega
  rw [parse, String.toList_ofList, readValue_written leadBlank gapBlank closeBlank enough []]
  rfl

end StyleGraph.Json
