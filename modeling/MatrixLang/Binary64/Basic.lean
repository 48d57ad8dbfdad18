/-! # Binary64 numbers

A finite number is kept exactly, as a significand times a power of two, so that reading and
writing are integer arithmetic. Powers are `Nat.pow`, so that no instance for `^` comes into the
definitions.
-/

namespace MatrixLang

inductive Binary64 where
  | nan
  | infinity (negative : Bool)
  | finite (negative : Bool) (significand : Nat) (exponent : Int)
  deriving DecidableEq, Repr

namespace Binary64

def precision : Nat := 53

def leastExponent : Int := -1074

def greatestExponent : Int := 971

def zero (negative : Bool) : Binary64 := .finite negative 0 leastExponent

end Binary64

end MatrixLang
