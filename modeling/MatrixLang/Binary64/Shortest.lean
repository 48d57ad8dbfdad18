import MatrixLang.Binary64.Basic

/-! # The shortest decimal that reads back

A positive number is identified by every decimal in the interval of reals that round to it, with
the ends included for an even significand. For a growing count of digits its two neighbours on the
decimal grid are tried: the first grid with a neighbour inside the interval gives the digits, and
of two neighbours the nearer is taken, the upper one on a tie.
-/

namespace MatrixLang.Binary64

/-- An interval `low / unit .. high / unit` of reals around `value / unit`. -/
structure Interval where
  low : Nat
  value : Nat
  high : Nat
  unit : Nat
  closed : Bool

namespace Interval

/-- The reals that round to `s * 2 ^ q`, for a positive `s`. -/
def ofFinite (s : Nat) (q : Int) : Interval :=
  let below := if s = Nat.pow 2 (precision - 1) ∧ leastExponent < q then 1 else 2
  let factor := Nat.pow 2 (q - 2).toNat
  { low := (4 * s - below) * factor
    value := 4 * s * factor
    high := (4 * s + 2) * factor
    unit := Nat.pow 2 (2 - q).toNat
    closed := s % 2 = 0 }

def inUnits (i : Interval) (e : Int) : Interval :=
  let up := Nat.pow 10 (-e).toNat
  let down := Nat.pow 10 e.toNat
  { i with low := i.low * up, value := i.value * up, high := i.high * up, unit := i.unit * down }

def contains (i : Interval) (n : Nat) : Bool :=
  if i.closed then i.low ≤ n * i.unit ∧ n * i.unit ≤ i.high
  else i.low < n * i.unit ∧ n * i.unit < i.high

/-- The grid point inside the interval that is nearest to the value, if there is one. -/
def gridPoint? (i : Interval) : Option Nat :=
  let d := i.value / i.unit
  match i.contains d, i.contains (d + 1) with
  | true, true => if 2 * (i.value % i.unit) < i.unit then some d else some (d + 1)
  | true, false => some d
  | false, true => some (d + 1)
  | false, false => none

/-- The greatest `e` with `10 ^ e ≤ value / unit`. -/
def magnitude (i : Interval) : Int :=
  let e : Int := ((Nat.toDigits 10 i.value).length : Int) - (Nat.toDigits 10 i.unit).length
  let scaled := i.inUnits e
  if scaled.value < scaled.unit then e - 1 else e

end Interval

/-- A positive decimal: `digits * 10 ^ exponent`. -/
structure Decimal where
  digits : Nat
  exponent : Int
  deriving DecidableEq, Repr

/-- More digits than this are never needed. -/
def enoughDigits : Nat := 17

/-- The first of the grids with `count`, `count + 1`, … digits that has a point inside. -/
def firstGrid (i : Interval) (top : Int) : Nat → Nat → Decimal
  | _, 0 => ⟨i.value / i.unit, 0⟩
  | count, tries + 1 =>
    let e := top + 1 - count
    match (i.inUnits e).gridPoint? with
    | some d => ⟨d, e⟩
    | none => firstGrid i top (count + 1) tries

/-- The decimal with the fewest digits that rounds to `s * 2 ^ q`, the nearest of those. -/
def shortest (s : Nat) (q : Int) : Decimal :=
  let i := Interval.ofFinite s q
  firstGrid i i.magnitude 1 enoughDigits

end MatrixLang.Binary64
