import HostFleet.Decimal.Binary64

/-!
# The shortest decimal that reads back

A double is written with the fewest digits that still round to it, and of those the nearest to it. `shortest` finds the
digits; a `Layout` says which of two equally near ones is taken, and where positional notation ends and an exponent
begins.
-/

namespace HostFleet.Decimal

/-- The value `digits * 10 ^ exponent`. -/
structure Digits where
  digits : Nat
  exponent : Int
  deriving DecidableEq, Repr

/-- Which of two equally near neighbours is taken. -/
inductive Tie where
  | even
  | away
  deriving DecidableEq, Repr

/-- The least `j` from the given one on, among finitely many, with `den ≤ num * 10 ^ j`. -/
def leadingZeros (num den : Nat) : (fuel : Nat) → (j : Nat) → Nat
  | 0, j => j
  | fuel + 1, j => if den ≤ num * Nat.pow 10 j then j else leadingZeros num den fuel (j + 1)

def leadingExponent (num den : Nat) : Int :=
  if den ≤ num then ((Nat.toDigits 10 (num / den)).length : Int) - 1 else -(leadingZeros num den 400 1 : Int)

/-- A fraction divided by a power of ten, as a fraction. -/
def scaled (num den : Nat) (power : Int) : Nat × Nat :=
  if 0 ≤ power then (num, den * Nat.pow 10 power.toNat) else (num * Nat.pow 10 (-power).toNat, den)

/-- Of the two neighbours of the fraction `num / den` on the grid of multiples of `10 ^ exponent`, one that lies strictly
between `low / den` and `high / den`, or at an end if ends count: the nearer one if both do. -/
def neighbour? (tie : Tie) (low num high den : Nat) (ends : Bool) (exponent : Int) : Option Nat :=
  let (n, d) := scaled num den exponent
  let (l, _) := scaled low den exponent
  let (h, _) := scaled high den exponent
  let within (g : Nat) : Bool := if ends then l ≤ g * d && g * d ≤ h else l < g * d && g * d < h
  let below := n / d
  let above := below + 1
  match within below, within above with
  | true, true =>
    let down := n - below * d
    let up := above * d - n
    if down < up then some below
    else if up < down then some above
    else if tie = .even ∧ below % 2 = 0 then some below else some above
  | true, false => some below
  | false, true => some above
  | false, false => none

/-- The first grid with a hit, from `count` digits on. -/
def search (tie : Tie) (low num high den : Nat) (ends : Bool) (top : Int) : (fuel : Nat) → (count : Nat) → Digits
  | 0, count => ⟨num / den, top - count⟩
  | fuel + 1, count =>
    let exponent := top - count + 1
    match neighbour? tie low num high den ends exponent with
    | some g => ⟨g, exponent⟩
    | none => search tie low num high den ends top fuel (count + 1)

/-- Moves zeros at the end of the digits into the exponent. -/
def strip : (fuel : Nat) → Digits → Digits
  | 0, d => d
  | fuel + 1, d => if d.digits ≠ 0 ∧ d.digits % 10 = 0 then strip fuel ⟨d.digits / 10, d.exponent + 1⟩ else d

/-- The fewest digits that round to `significand * 2 ^ exponent`, a positive double. The numbers that round to it reach
half a step up and half a step down, a quarter step where the step changes, ends included if the significand is even. -/
def shortest (tie : Tie) (significand : Nat) (exponent : Int) : Digits :=
  let low := if significand = Nat.pow 2 52 ∧ Binary64.minExponent < exponent then 4 * significand - 1 else 4 * significand - 2
  let high := 4 * significand + 2
  let up := Nat.pow 2 (exponent - 2).toNat
  let den := Nat.pow 2 (2 - exponent).toNat
  let num := 4 * significand * up
  let found := search tie (low * up) num (high * up) den (significand % 2 = 0) (leadingExponent num den) 17 1
  strip 20 found

/-- How a decimal is written. -/
structure Layout where
  tie : Tie
  /-- Positional notation is for leading digits whose exponent lies between these bounds, if there are bounds. -/
  positional : Option (Int × Int)

/-- Documents write exponents from -5 to 15 positionally and others in scientific notation, and prefer even digits. -/
def Layout.document : Layout := ⟨.even, some (-5, 15)⟩

/-- Messages never use scientific notation, and prefer the digits farther from zero. -/
def Layout.message : Layout := ⟨.away, none⟩

/-- The text of digits with the leading one at a given exponent. There is always a fraction, if only a zero, unless
there is an exponent, which has a sign. -/
def Layout.digits (layout : Layout) (d : Digits) : String :=
  let ds := Nat.toDigits 10 d.digits
  let lead : Int := ds.length + d.exponent - 1
  let plain := match layout.positional with
    | some (lo, hi) => lo ≤ lead && lead ≤ hi
    | none => true
  let chars :=
    if plain then
      if 0 ≤ d.exponent then ds ++ List.replicate d.exponent.toNat '0' ++ ['.', '0']
      else if 0 ≤ lead then ds.take (lead + 1).toNat ++ '.' :: ds.drop (lead + 1).toNat
      else '0' :: '.' :: (List.replicate (-lead - 1).toNat '0' ++ ds)
    else
      let tail := ds.drop 1
      let sign := if 0 ≤ lead then '+' else '-'
      ds.take 1 ++ (if tail.isEmpty then [] else '.' :: tail) ++ 'e' :: sign :: Nat.toDigits 10 lead.natAbs
  String.ofList chars

def Layout.write (layout : Layout) : Binary64 → String
  | .nan => "NaN"
  | .infinite negative => if negative then "-inf" else "inf"
  | .finite negative significand exponent =>
    let text := if significand = 0 then "0.0" else layout.digits (shortest layout.tie significand exponent)
    if negative then "-" ++ text else text

end HostFleet.Decimal
