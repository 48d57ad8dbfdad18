import MatrixLang.Binary64.Nearest
import MatrixLang.Binary64.Shortest

/-! # The text of binary64 numbers

Numbers are written with the fewest digits that read back, positionally with a point for ordinary
magnitudes and with an exponent for the others. Reading accepts a sign, digits around an optional
point, an exponent, and the names of the special values in either case.
-/

namespace MatrixLang.Binary64

/-- The choices of a written form that the digits leave open. -/
structure WrittenForm where
  lowestPositional : Int
  highestPositional : Int
  exponentMark : Char
  wholeSuffix : String
  nan : String
  infinity : String

/-- From a ten-thousandth to below ten quadrillion numbers are positional, with at least one digit
behind the point. -/
def literalForm : WrittenForm :=
  { lowestPositional := -4
    highestPositional := 15
    exponentMark := 'e'
    wholeSuffix := ".0"
    nan := "NaN"
    infinity := "inf" }

def dropTrailingZeros (ds : List Char) : List Char :=
  (ds.reverse.dropWhile (· == '0')).reverse

/-- The digits with a point behind the first, times ten to the power `e`, with all places. -/
def positional (form : WrittenForm) (ds : List Char) (e : Int) : String :=
  if e < 0 then
    "0." ++ String.ofList (List.replicate (-e - 1).toNat '0' ++ ds)
  else
    let places := e.toNat + 1
    if ds.length ≤ places then
      String.ofList (ds ++ List.replicate (places - ds.length) '0') ++ form.wholeSuffix
    else
      String.ofList (ds.take places) ++ "." ++ String.ofList (ds.drop places)

/-- The digits with a point behind the first, and the power `e` of ten behind a mark. -/
def scientific (form : WrittenForm) (ds : List Char) (e : Int) : String :=
  let mantissa := match ds with
    | [] => ""
    | [d] => d.toString
    | d :: ds => d.toString ++ "." ++ String.ofList ds
  mantissa ++ form.exponentMark.toString ++ toString e

def magnitudeText (form : WrittenForm) (s : Nat) (q : Int) : String :=
  let d := shortest s q
  let ds := Nat.toDigits 10 d.digits
  let e := d.exponent + ds.length - 1
  let ds := dropTrailingZeros ds
  if form.lowestPositional ≤ e ∧ e ≤ form.highestPositional then positional form ds e
  else scientific form ds e

def text (x : Binary64) : String :=
  let sign (negative : Bool) := if negative then "-" else ""
  match x with
  | .nan => literalForm.nan
  | .infinity negative => sign negative ++ literalForm.infinity
  | .finite negative 0 _ => sign negative ++ "0" ++ literalForm.wholeSuffix
  | .finite negative s q => sign negative ++ magnitudeText literalForm s q

def digitsValue (ds : List Char) : Nat :=
  ds.foldl (fun n d => 10 * n + (d.toNat - '0'.toNat)) 0

/-- The number written by digits before a point, digits behind it, and an exponent. -/
def ofDigits (negative : Bool) (whole fraction : List Char) (exponent : Int) : Binary64 :=
  ofDecimal negative (digitsValue (whole ++ fraction)) (exponent - fraction.length)

def exponentValue? : List Char → Option Int
  | '-' :: ds => if ds.isEmpty ∨ ¬ ds.all Char.isDigit then none else some (-(digitsValue ds : Int))
  | '+' :: ds => if ds.isEmpty ∨ ¬ ds.all Char.isDigit then none else some (digitsValue ds)
  | ds => if ds.isEmpty ∨ ¬ ds.all Char.isDigit then none else some (digitsValue ds)

/-- Reads digits around an optional point, then an optional exponent. -/
def readUnsigned? (negative : Bool) (cs : List Char) : Option Binary64 :=
  let whole := cs.takeWhile Char.isDigit
  let rest := cs.dropWhile Char.isDigit
  let (fraction, rest) := match rest with
    | '.' :: more => (more.takeWhile Char.isDigit, more.dropWhile Char.isDigit)
    | _ => ([], rest)
  if whole.isEmpty ∧ fraction.isEmpty then none
  else match rest with
    | [] => some (ofDigits negative whole fraction 0)
    | e :: more =>
      if e = 'e' ∨ e = 'E' then (exponentValue? more).map (ofDigits negative whole fraction)
      else none

/-- Reads an unsigned number or the name of a special value. -/
def readMagnitude? (negative : Bool) (cs : List Char) : Option Binary64 :=
  let name := String.ofList (cs.map Char.toLower)
  if name = "inf" ∨ name = "infinity" then some (.infinity negative)
  else if name = "nan" then some .nan
  else readUnsigned? negative cs

def read? (s : String) : Option Binary64 :=
  match s.toList with
  | '-' :: cs => readMagnitude? true cs
  | '+' :: cs => readMagnitude? false cs
  | cs => readMagnitude? false cs

end MatrixLang.Binary64
