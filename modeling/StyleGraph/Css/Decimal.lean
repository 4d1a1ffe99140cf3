import StyleGraph.Number.Power

/-!
# Decimal numbers

Exact decimal numbers, as style sheets write them. A number is `mantissa · 10 ^ exponent`; reading
takes trailing zeros out of the mantissa, so equal numbers have equal representations. Writing
keeps six significant digits, leaves out a zero before the point, and never uses an exponent.
-/

set_option autoImplicit false

namespace StyleGraph.Css

/-- A decimal number. -/
structure Decimal where
  /-- Whether the number is written with a minus sign; zero may be. -/
  negative : Bool := false
  mantissa : Nat := 0
  exponent : Int := 0
  deriving DecidableEq, Repr, Inhabited

namespace Decimal

/-- Moves trailing zeros of the mantissa into the exponent. -/
def trimZeros : Nat → Nat → Int → Nat × Int
  | 0, mantissa, exponent => (mantissa, exponent)
  | fuel + 1, mantissa, exponent =>
    if mantissa = 0 then (0, 0)
    else if mantissa % 10 = 0 then trimZeros fuel (mantissa / 10) (exponent + 1)
    else (mantissa, exponent)

/-- The number with the given parts, in its one representation. -/
def make (negative : Bool) (mantissa : Nat) (exponent : Int) : Decimal :=
  let (mantissa, exponent) := trimZeros (Nat.log2 mantissa + 1) mantissa exponent
  ⟨negative, mantissa, exponent⟩

/-- A natural number. -/
def ofNat (n : Nat) : Decimal := make false n 0

/-- Whether the number is zero. -/
def isZero (d : Decimal) : Bool := d.mantissa == 0

/-- Whether the number has no fraction. -/
def isInteger (d : Decimal) : Bool := d.exponent ≥ 0

/-- The number as an integer, its fraction cut off. -/
def toInt (d : Decimal) : Int :=
  let size : Nat :=
    if d.exponent ≥ 0 then d.mantissa * Number.tenTo d.exponent.toNat
    else d.mantissa / Number.tenTo (-d.exponent).toNat
  if d.negative then -(size : Int) else size

/-- Keeps at most `places` significant digits, a half going away from zero. -/
def roundTo (places : Nat) (d : Decimal) : Decimal :=
  let length := (Nat.toDigits 10 d.mantissa).length
  if length ≤ places then d
  else
    let drop := length - places
    let unit := Number.tenTo drop
    make d.negative ((d.mantissa + unit / 2) / unit) (d.exponent + drop)

/-- The digits of a number's size: those before the point and those after it. -/
def digits (d : Decimal) : List Char × List Char :=
  let ds := Nat.toDigits 10 d.mantissa
  if d.exponent ≥ 0 then (ds ++ List.replicate d.exponent.toNat '0', [])
  else
    let places := (-d.exponent).toNat
    if places < ds.length then (ds.take (ds.length - places), ds.drop (ds.length - places))
    else (['0'], List.replicate (places - ds.length) '0' ++ ds)

/-- The written form. -/
def render (d : Decimal) : String :=
  let d := d.roundTo 6
  let (whole, fraction) := d.digits
  let sign := if d.negative && !d.isZero then "-" else ""
  if fraction.isEmpty then sign ++ String.ofList whole
  else
    let whole := if whole == ['0'] then [] else whole
    sign ++ String.ofList (whole ++ '.' :: fraction)

/-- The number times a power of ten. -/
def scale (d : Decimal) (power : Int) : Decimal :=
  if d.isZero then d else ⟨d.negative, d.mantissa, d.exponent + power⟩

end Decimal

end StyleGraph.Css
