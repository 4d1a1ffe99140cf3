import StyleGraph.Number.Power

/-!
# Binary numbers of 64 bits

Numbers `mantissa · 2 ^ exponent` with at most 53 binary digits, and two infinities. A decimal
number is read as the nearest such number, an exact half going to the even one. A number is written
with the fewest decimal digits that read back as the same number, never with an exponent.
-/

set_option autoImplicit false

namespace StyleGraph.Number

/-- The size of a number. -/
inductive Magnitude
  /-- `mantissa · 2 ^ exponent`. -/
  | finite (mantissa : Nat) (exponent : Int)
  | infinite
  deriving DecidableEq, Repr, Inhabited

/-- A signed number; zero has a sign too. -/
structure Binary64 where
  negative : Bool := false
  magnitude : Magnitude := .finite 0 0
  deriving DecidableEq, Repr, Inhabited

namespace Binary64

/-- The least exponent. -/
def leastExponent : Int := -1074

/-- The greatest exponent. -/
def greatestExponent : Int := 971

/-- The quotient `num / den` rounded to a whole number, a half going to the even one. -/
def roundQuotient (num den : Nat) : Nat :=
  let whole := num / den
  let twice := 2 * (num % den)
  if twice < den then whole
  else if den < twice then whole + 1
  else if whole % 2 = 0 then whole
  else whole + 1

/-- The number of binary digits. -/
def bitLength (n : Nat) : Nat := if n = 0 then 0 else Nat.log2 n + 1

/-- The quotient of `num` and `den · 2 ^ exponent`, rounded to a whole number. -/
def scaledQuotient (num den : Nat) (exponent : Int) : Nat :=
  if exponent ≥ 0 then roundQuotient num (den * twoTo exponent.toNat)
  else roundQuotient (num * twoTo (-exponent).toNat) den

/-- The number nearest to the quotient of two natural numbers, `den` not being zero. -/
def ofQuotient (num den : Nat) : Magnitude :=
  if num = 0 then .finite 0 0
  else
    let guess : Int := (bitLength num : Int) - bitLength den - 53
    let exponent := max guess leastExponent
    let mantissa := scaledQuotient num den exponent
    let (mantissa, exponent) :=
      if mantissa < twoTo 53 then (mantissa, exponent)
      else if mantissa = twoTo 53 then (twoTo 52, exponent + 1)
      else
        let mantissa := scaledQuotient num den (exponent + 1)
        if mantissa = twoTo 53 then (twoTo 52, exponent + 2) else (mantissa, exponent + 1)
    if exponent > greatestExponent then .infinite else .finite mantissa exponent

/-- The number nearest to `digits · 10 ^ power`. Numbers far outside the range are not spelled
out. -/
def ofDecimal (digits : Nat) (power : Int) : Magnitude :=
  let length : Int := (Nat.toDigits 10 digits).length
  if digits = 0 || length + power < -400 then .finite 0 0
  else if length + power > 400 then .infinite
  else if power ≥ 0 then ofQuotient (digits * tenTo power.toNat) 1
  else ofQuotient digits (tenTo (-power).toNat)

/-- A natural number. -/
def ofNat (n : Nat) : Magnitude := ofQuotient n 1

/-- Whether a number is zero, of either sign. -/
def isZero (number : Binary64) : Bool :=
  match number.magnitude with
  | .finite mantissa _ => mantissa = 0
  | .infinite => false

/-- The number with the other sign. -/
def negate (number : Binary64) : Binary64 := { number with negative := !number.negative }

/-- A finite size as a quotient. -/
def quotient (mantissa : Nat) (exponent : Int) : Nat × Nat :=
  if exponent ≥ 0 then (mantissa * twoTo exponent.toNat, 1) else (mantissa, twoTo (-exponent).toNat)

/-- The power of ten of the first digit: the greatest `p` with `10 ^ p ≤ num / den`, searched from
a guess upwards. -/
def leadingPower (num den : Nat) : Int :=
  let guess : Int := (((bitLength num : Int) - bitLength den - 1) * 30103) / 100000 - 1
  go num den 4 guess
where
  /-- Whether `10 ^ power ≤ num / den`. -/
  reaches (num den : Nat) (power : Int) : Bool :=
    if power ≥ 0 then tenTo power.toNat * den ≤ num else den ≤ num * tenTo (-power).toNat
  go (num den : Nat) : Nat → Int → Int
    | 0, power => power
    | fuel + 1, power => if reaches num den (power + 1) then go num den fuel (power + 1) else power

/-- The two neighbours of a quotient among the multiples of a power of ten, each as its number of
units, the nearer one first. -/
def neighbours (num den : Nat) (power : Int) : Nat × Nat :=
  let (n, d) :=
    if power ≥ 0 then (num, den * tenTo power.toNat) else (num * tenTo (-power).toNat, den)
  let low := n / d
  if 2 * (n % d) ≤ d then (low, low + 1) else (low + 1, low)

/-- The digits and the power of the last digit of the shortest decimal number that reads back. -/
def shortest (mantissa : Nat) (exponent : Int) : Nat × Int :=
  let (num, den) := quotient mantissa exponent
  let lead := leadingPower num den
  let target := ofQuotient num den
  go num den lead target 17 1
where
  go (num den : Nat) (lead : Int) (target : Magnitude) : Nat → Nat → Nat × Int
    | 0, _ => (num / den, 0)
    | fuel + 1, count =>
      let power := lead - count + 1
      let (near, far) := neighbours num den power
      if ofDecimal near power = target then carried near power
      else if ofDecimal far power = target then carried far power
      else go num den lead target fuel (count + 1)
  /-- Rounding up to the next power of ten adds a digit, which is a zero. -/
  carried (digits : Nat) (power : Int) : Nat × Int :=
    if digits % 10 = 0 then (digits / 10, power + 1) else (digits, power)

/-- The written form of `digits · 10 ^ power`, without an exponent. -/
def positional (digits : Nat) (power : Int) : List Char :=
  let ds := Nat.toDigits 10 digits
  if power ≥ 0 then ds ++ List.replicate power.toNat '0'
  else
    let places := (-power).toNat
    if places < ds.length then
      ds.take (ds.length - places) ++ '.' :: ds.drop (ds.length - places)
    else '0' :: '.' :: List.replicate (places - ds.length) '0' ++ ds

/-- The written form. Zero has no sign. -/
def render (number : Binary64) : String :=
  let sign := if number.negative && !number.isZero then "-" else ""
  match number.magnitude with
  | .infinite => sign ++ "inf"
  | .finite 0 _ => "0"
  | .finite mantissa exponent =>
    let (digits, power) := shortest mantissa exponent
    sign ++ String.ofList (positional digits power)

end Binary64

end StyleGraph.Number
