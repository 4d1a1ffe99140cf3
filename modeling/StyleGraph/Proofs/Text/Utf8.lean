import StyleGraph.Text.Utf8

/-!
# Reading what was written as UTF-8

A character is written as a lead byte and bytes that continue it, six bits each. They are read as
that character, whatever follows them (`step_utf8EncodeChar`), and so the bytes of a text are read
as that text.
-/

set_option autoImplicit false

namespace StyleGraph.Text.Utf8

/-- The number of a byte that is written as a number. -/
theorem toNat_ofNat {n : Nat} (small : n < 256) : (UInt8.ofNat n).toNat = n := by
  rw [UInt8.toNat_ofNat', Nat.mod_eq_of_lt small]

/-! ## Bytes that continue a character -/

/-- The byte written for six bits is read as a continuation. -/
theorem isContinuation_ofNat {bits : Nat} (six : bits < 64) :
    isContinuation (UInt8.ofNat (bits + 128)) = true := by
  simp only [isContinuation, Bool.and_eq_true, decide_eq_true_eq, UInt8.le_iff_toNat_le,
    toNat_ofNat (show bits + 128 < 256 by omega), UInt8.reduceToNat]
  omega

/-- Its six bits are read back. -/
theorem payload_ofNat {bits : Nat} (six : bits < 64) :
    payload (UInt8.ofNat (bits + 128)) = bits := by
  rw [payload, toNat_ofNat (by omega)]
  omega

/-- A second byte is allowed unless the character is too small for the number of bytes, a surrogate
or too large. -/
theorem secondOk_ofNat {lead bits : Nat} (small : lead < 256) (six : bits < 64)
    (long : lead = 224 → 32 ≤ bits) (scalar : lead = 237 → bits < 32)
    (longer : lead = 240 → 16 ≤ bits) (last : lead = 244 → bits < 16) :
    secondOk (UInt8.ofNat lead) (UInt8.ofNat (bits + 128)) = true := by
  have leadNat := toNat_ofNat small
  have bitsNat := toNat_ofNat (show bits + 128 < 256 by omega)
  simp only [secondOk, isContinuation_ofNat six, beq_iff_eq, ← UInt8.toNat_inj, leadNat,
    UInt8.le_iff_toNat_le, bitsNat, UInt8.reduceToNat]
  repeat' split
  any_goals simp only [Bool.and_eq_true, decide_eq_true_eq]
  all_goals omega

/-! ## A step for each width -/

/-- The decoder takes one byte for a character below 128. -/
theorem step_one {code : Nat} (ascii : code < 128) (rest : List UInt8) :
    step (UInt8.ofNat code) rest = .char (Char.ofNat code) 1 := by
  have leadNat := toNat_ofNat (show code < 256 by omega)
  simp only [step, UInt8.lt_iff_toNat_lt, leadNat, UInt8.reduceToNat, if_pos ascii]

/-- Two bytes are taken for eleven bits, if they do not fit in one. -/
theorem step_two {high low : Nat} (long : 2 ≤ high) (five : high < 32) (six : low < 64)
    (rest : List UInt8) :
    step (UInt8.ofNat (high + 192)) (UInt8.ofNat (low + 128) :: rest) =
      .char (Char.ofNat (high * 64 + low)) 2 := by
  have leadNat := toNat_ofNat (show high + 192 < 256 by omega)
  simp only [step, UInt8.lt_iff_toNat_lt, leadNat, UInt8.reduceToNat, isContinuation_ofNat six,
    payload_ofNat six, if_true]
  rw [if_neg (by omega), if_neg (by omega), if_pos (by omega),
    show (high + 192) % 32 = high by omega]

/-- Three bytes are taken for sixteen bits, if they do not fit in two and are no surrogate. The
conditions are those under which a decoder takes the form at all. -/
theorem step_three {high middle low : Nat} (four : high < 16) (six : middle < 64) (six' : low < 64)
    (long : high = 0 → 32 ≤ middle) (scalar : high = 13 → middle < 32) (rest : List UInt8) :
    step (UInt8.ofNat (high + 224))
        (UInt8.ofNat (middle + 128) :: UInt8.ofNat (low + 128) :: rest) =
      .char (Char.ofNat ((high * 64 + middle) * 64 + low)) 3 := by
  have leadNat := toNat_ofNat (show high + 224 < 256 by omega)
  have second : secondOk (UInt8.ofNat (high + 224)) (UInt8.ofNat (middle + 128)) = true :=
    secondOk_ofNat (by omega) six (by omega) (by omega) (by omega) (by omega)
  simp only [step, UInt8.lt_iff_toNat_lt, leadNat, UInt8.reduceToNat, isContinuation_ofNat six',
    payload_ofNat six, payload_ofNat six', second, Bool.not_true, Bool.false_eq_true, if_true,
    if_false]
  rw [if_neg (by omega), if_neg (by omega), if_neg (by omega), if_pos (by omega),
    show (high + 224) % 16 = high by omega]

/-- Four bytes are taken for the rest, up to the last code point. -/
theorem step_four {high second third low : Nat} (three : high < 5) (six : second < 64)
    (six' : third < 64) (six'' : low < 64) (long : high = 0 → 16 ≤ second)
    (last : high = 4 → second < 16) (rest : List UInt8) :
    step (UInt8.ofNat (high + 240)) (UInt8.ofNat (second + 128) :: UInt8.ofNat (third + 128) ::
        UInt8.ofNat (low + 128) :: rest) =
      .char (Char.ofNat (((high * 64 + second) * 64 + third) * 64 + low)) 4 := by
  have leadNat := toNat_ofNat (show high + 240 < 256 by omega)
  have secondOk : secondOk (UInt8.ofNat (high + 240)) (UInt8.ofNat (second + 128)) = true :=
    secondOk_ofNat (by omega) six (by omega) (by omega) (by omega) (by omega)
  simp only [step, UInt8.lt_iff_toNat_lt, leadNat, UInt8.reduceToNat, isContinuation_ofNat six',
    isContinuation_ofNat six'', payload_ofNat six, payload_ofNat six', payload_ofNat six'',
    secondOk, Bool.not_true, Bool.false_eq_true, if_true, if_false]
  rw [if_neg (by omega), if_neg (by omega), if_neg (by omega), if_neg (by omega),
    if_pos (by omega), show (high + 240) % 8 = high by omega]

/-! ## Characters and texts -/

/-- **The bytes of a character are read as that character.** There are four lengths, told apart by
the size of the code point, and the decoder takes them by the first byte. -/
theorem step_utf8EncodeChar (c : Char) (rest : List UInt8) :
    ∃ lead tail, String.utf8EncodeChar c = lead :: tail ∧
      step lead (tail ++ rest) = .char c (tail.length + 1) := by
  have valid : c.val.toNat < 55296 ∨ 57343 < c.val.toNat ∧ c.val.toNat < 1114112 := c.valid
  have same : Char.ofNat c.val.toNat = c := Char.ofNat_toNat c
  unfold String.utf8EncodeChar
  generalize c.val.toNat = code at valid same
  simp only
  split
  next => exact ⟨_, _, rfl, by rw [step_one (by omega), same]; rfl⟩
  split
  next =>
    refine ⟨_, _, rfl, (step_two ?_ ?_ ?_ rest).trans ?_⟩
    · omega
    · omega
    · omega
    · rw [show code / 64 % 32 * 64 + code % 64 = code by omega, same]
      rfl
  split
  next =>
    refine ⟨_, _, rfl, (step_three ?_ ?_ ?_ ?_ ?_ rest).trans ?_⟩
    · omega
    · omega
    · omega
    · omega
    · omega
    · rw [show (code / 4096 % 16 * 64 + code / 64 % 64) * 64 + code % 64 = code by omega, same]
      rfl
  next =>
    refine ⟨_, _, rfl, (step_four ?_ ?_ ?_ ?_ ?_ ?_ rest).trans ?_⟩
    · omega
    · omega
    · omega
    · omega
    · omega
    · omega
    · rw [show ((code / 262144 % 8 * 64 + code / 4096 % 64) * 64 + code / 64 % 64) * 64 +
        code % 64 = code by omega, same]
      rfl

/-- A character is read first from the bytes of a text that begins with it. Each turn takes the
bytes of one character, so the number of bytes is enough fuel. -/
theorem decodeLossy_go_encode (cs : List Char) (fuel : Nat) (enough : (encode cs).length ≤ fuel) :
    decodeLossy.go fuel (encode cs) = cs := by
  induction cs generalizing fuel with
  | nil => cases fuel <;> rfl
  | cons c cs ih =>
    obtain ⟨lead, tail, written, read⟩ := step_utf8EncodeChar c (encode cs)
    have bytes : encode (c :: cs) = lead :: (tail ++ encode cs) := by
      rw [encode, List.flatMap_cons, written, List.cons_append, encode]
    rw [bytes] at enough ⊢
    cases fuel with
    | zero => cases enough
    | succ fuel =>
      simp only [decodeLossy.go, read, Nat.add_sub_cancel, List.drop_left]
      rw [ih fuel]
      simp only [List.length_cons, List.length_append] at enough
      omega

/-- **The bytes of a text are read as that text.** -/
theorem decodeLossy_encode (cs : List Char) : decodeLossy (encode cs) = cs :=
  decodeLossy_go_encode cs _ (Nat.le_refl _)

end StyleGraph.Text.Utf8
