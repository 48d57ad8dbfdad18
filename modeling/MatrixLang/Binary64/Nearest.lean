import MatrixLang.Binary64.Basic

/-! # Rounding to the nearest binary64 number

A positive ratio is rounded to the nearest number, an exact tie to the even significand, and a
ratio beyond the greatest number to infinity. A decimal far outside the range is settled by its
length alone, so that a long exponent costs nothing.
-/

namespace MatrixLang.Binary64

def divideToEven (num den : Nat) : Nat :=
  let q := num / den
  let r := num % den
  if 2 * r < den then q
  else if den < 2 * r then q + 1
  else if q % 2 = 0 then q else q + 1

/-- The numerator and denominator of `num / den * 2 ^ e`. -/
def scaleTwo (num den : Nat) (e : Int) : Nat × Nat :=
  if 0 ≤ e then (num * Nat.pow 2 e.toNat, den) else (num, den * Nat.pow 2 (-e).toNat)

/-- The greatest `e` with `2 ^ e ≤ num / den`, for positive `num` and `den`. -/
def floorLogTwo (num den : Nat) : Int :=
  let e : Int := (num.log2 : Int) - den.log2
  let scaled := scaleTwo num den (-e)
  if scaled.1 < scaled.2 then e - 1 else e

/-- The number nearest to `num / den`. -/
def ofRatio (negative : Bool) (num den : Nat) : Binary64 :=
  if num = 0 then zero negative
  else
    let q := max (floorLogTwo num den - (precision - 1)) leastExponent
    let scaled := scaleTwo num den (-q)
    let s := divideToEven scaled.1 scaled.2
    let (s, q) := if s = Nat.pow 2 precision then (Nat.pow 2 (precision - 1), q + 1) else (s, q)
    if greatestExponent < q then .infinity negative else .finite negative s q

/-- Every ratio with so many digits before the point is infinite. -/
def overflowDigits : Int := 310

/-- Every ratio with so many zeros behind the point rounds to zero. -/
def underflowDigits : Int := -330

/-- The number nearest to `digits * 10 ^ exponent`. -/
def ofDecimal (negative : Bool) (digits : Nat) (exponent : Int) : Binary64 :=
  if digits = 0 then zero negative
  else
    let magnitude := exponent + (Nat.toDigits 10 digits).length
    if overflowDigits < magnitude then .infinity negative
    else if magnitude < underflowDigits then zero negative
    else if 0 ≤ exponent then ofRatio negative (digits * Nat.pow 10 exponent.toNat) 1
    else ofRatio negative digits (Nat.pow 10 (-exponent).toNat)

end MatrixLang.Binary64
