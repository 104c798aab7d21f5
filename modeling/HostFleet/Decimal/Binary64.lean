/-!
# Binary floating-point numbers

The numbers a configuration can hold besides integers: IEEE 754 doubles, as a sign, a whole significand and a power of
two. `ofDecimal` is the rounding of a decimal to the nearest double, in exact arithmetic on natural numbers, so that
everything about it can be computed and proved.
-/

namespace HostFleet

/-- A double. A finite one is `significand * 2 ^ exponent`, where the exponent is at least -1074 and the significand has
53 bits, or fewer if the exponent is -1074. -/
inductive Binary64 where
  | finite (negative : Bool) (significand : Nat) (exponent : Int)
  | infinite (negative : Bool)
  | nan
  deriving DecidableEq, Repr

namespace Binary64

def minExponent : Int := -1074

def maxExponent : Int := 971

def zero (negative : Bool) : Binary64 := .finite negative 0 minExponent

def isFinite : Binary64 → Bool
  | .finite .. => true
  | _ => false

/-- The whole number nearest to a fraction, with a half going to the even neighbour. -/
def roundDiv (num den : Nat) : Nat :=
  let whole := num / den
  let rest := num % den
  if den < 2 * rest ∨ (2 * rest = den ∧ whole % 2 = 1) then whole + 1 else whole

/-- The fraction divided by a power of two, as a fraction. -/
def scaled (num den : Nat) (power : Int) : Nat × Nat :=
  if 0 ≤ power then (num, den * Nat.pow 2 power.toNat) else (num * Nat.pow 2 (-power).toNat, den)

/-- The exponent with which a positive fraction has a significand of 53 bits, or the least exponent if that is greater. -/
def exponentOf (num den : Nat) : Int :=
  let guess := (num.log2 : Int) - den.log2 - 52
  let (n, d) := scaled num den guess
  max minExponent (if n / d < Nat.pow 2 52 then guess - 1 else guess)

def ofFraction (negative : Bool) (num den : Nat) : Binary64 :=
  let exponent := exponentOf num den
  let (n, d) := scaled num den exponent
  let significand := roundDiv n d
  let (significand, exponent) :=
    if significand = Nat.pow 2 53 then (Nat.pow 2 52, exponent + 1) else (significand, exponent)
  if maxExponent < exponent then .infinite negative else .finite negative significand exponent

/-- The double nearest to `digits * 10 ^ exponent`. Decimals far outside the range of doubles are settled by their size
alone, so that no large power is ever computed. -/
def ofDecimal (negative : Bool) (digits : Nat) (exponent : Int) : Binary64 :=
  if digits = 0 then zero negative
  else
    let top := ((Nat.toDigits 10 digits).length : Int) + exponent
    if 400 < top then .infinite negative
    else if top < -400 then zero negative
    else if 0 ≤ exponent then ofFraction negative (digits * Nat.pow 10 exponent.toNat) 1
    else ofFraction negative digits (Nat.pow 10 (-exponent).toNat)

end Binary64

end HostFleet
