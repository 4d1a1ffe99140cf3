import StyleGraph.Proofs.Text.Utf8
import StyleGraph.Text.Percent

/-!
# Escaping and reading back

What is escaped is made of ASCII letters, digits and `%` alone, so it can stand where other
characters have a meaning; and it is read back as the text that was escaped.
-/

set_option autoImplicit false

namespace StyleGraph.Text.Percent

/-! ## Hexadecimal digits -/

/-- The digits of an escape are read back. -/
theorem hexValue?_upperDigit {n : Nat} (digit : n < 16) : hexValue? (upperDigit n) = some n :=
  have checked : ∀ n : Fin 16, hexValue? (upperDigit n) = some n.val := by decide
  checked ⟨n, digit⟩

/-- They are letters or digits, so an escape is never escaped again in part. -/
theorem isAlphanum_upperDigit {n : Nat} (digit : n < 16) : (upperDigit n).isAlphanum = true :=
  have checked : ∀ n : Fin 16, (upperDigit n).isAlphanum = true := by decide
  checked ⟨n, digit⟩

/-! ## One character -/

/-- Nothing decodes to no bytes. -/
theorem toBytes_nil : toBytes [] = [] := by
  rw [toBytes]

/-- A character other than the percent sign stands for its own bytes. -/
theorem toBytes_cons_of_ne {c : Char} (plain : c ≠ '%') (rest : List Char) :
    toBytes (c :: rest) = String.utf8EncodeChar c ++ toBytes rest := by
  rw [toBytes]
  exact fun _ _ _ same => absurd same plain

/-- An escape is read as its byte. -/
theorem toBytes_escape (byte : UInt8) (rest : List Char) :
    toBytes ('%' :: upperDigit (byte.toNat / 16) :: upperDigit (byte.toNat % 16) :: rest) =
      byte :: toBytes rest := by
  have small := byte.toNat_lt
  simp only [toBytes, hexValue?_upperDigit (show byte.toNat / 16 < 16 by omega),
    hexValue?_upperDigit (show byte.toNat % 16 < 16 by omega)]
  rw [show byte.toNat / 16 * 16 + byte.toNat % 16 = byte.toNat by omega, UInt8.ofNat_toNat]

/-- The bytes written as escapes are read back. -/
theorem toBytes_escapes (bytes : List UInt8) (rest : List Char) :
    toBytes ((bytes.flatMap fun byte =>
        ['%', upperDigit (byte.toNat / 16), upperDigit (byte.toNat % 16)]) ++ rest) =
      bytes ++ toBytes rest := by
  induction bytes with
  | nil => rfl
  | cons byte bytes ih =>
    simp only [List.flatMap_cons, List.cons_append, List.nil_append, toBytes_escape, ih]

/-- An escaped character is read as its bytes. -/
theorem toBytes_encodeChar (c : Char) (rest : List Char) :
    toBytes (encodeChar c ++ rest) = String.utf8EncodeChar c ++ toBytes rest := by
  unfold encodeChar
  split
  next plain => exact toBytes_cons_of_ne (fun same => by subst same; cases plain) rest
  next => exact toBytes_escapes _ rest

/-! ## Texts -/

/-- **What was escaped is read back.** -/
theorem decode_encode (cs : List Char) : decode (encode cs) = cs := by
  have bytes : toBytes (encode cs) = Utf8.encode cs := by
    induction cs with
    | nil => exact toBytes_nil
    | cons c cs ih =>
      rw [encode, List.flatMap_cons, toBytes_encodeChar, ← encode, ih]
      rfl
  rw [decode, bytes, Utf8.decodeLossy_encode]

/-- A text without a `%` stands for itself. -/
theorem decode_of_not_mem {cs : List Char} (absent : '%' ∉ cs) : decode cs = cs := by
  have bytes : toBytes cs = Utf8.encode cs := by
    induction cs with
    | nil => exact toBytes_nil
    | cons c cs ih =>
      obtain ⟨plain, absent⟩ := List.ne_and_not_mem_of_not_mem_cons absent
      rw [toBytes_cons_of_ne (Ne.symm plain), ih absent]
      rfl
  rw [decode, bytes, Utf8.decodeLossy_encode]

/-- What is escaped is made of ASCII letters, digits and `%`. All other characters are written as
bytes in hexadecimal digits. -/
theorem not_mem_encode {c : Char} (special : c.isAlphanum = false) (other : c ≠ '%')
    (cs : List Char) : c ∉ encode cs := by
  intro mem
  obtain ⟨before, _, mem⟩ := List.mem_flatMap.mp mem
  unfold encodeChar at mem
  split at mem
  next plain =>
    rw [List.mem_singleton.mp mem, plain] at special
    cases special
  next =>
    obtain ⟨byte, _, mem⟩ := List.mem_flatMap.mp mem
    have small := byte.toNat_lt
    have digit : ∀ n < 16, c ≠ upperDigit n := by
      rintro n digit rfl
      rw [isAlphanum_upperDigit digit] at special
      cases special
    simp only [List.mem_cons, List.not_mem_nil, or_false] at mem
    rcases mem with mem | mem | mem
    · exact other mem
    · exact digit _ (by omega) mem
    · exact digit _ (by omega) mem

end StyleGraph.Text.Percent
