import HostFleet.Decimal.Binary64
import HostFleet.Toml.Scan
import HostFleet.Toml.Value

/-!
# Numbers and times in TOML

A value that starts with a sign or a digit is a point in time, a floating-point number or an integer, tried in this order.
-/

namespace HostFleet.Toml

/-- Reads digits that underscores may divide; each underscore stands between two digits. -/
def digitRun (isDigit : Char → Bool) : Scanner (List Char)
  | [] => none
  | c :: rest => if isDigit c then some (more [c] rest) else none
where
  more (seen : List Char) : List Char → List Char × List Char
    | '_' :: c :: rest => if isDigit c then more (c :: seen) rest else (seen.reverse, '_' :: c :: rest)
    | c :: rest => if isDigit c then more (c :: seen) rest else (seen.reverse, c :: rest)
    | [] => (seen.reverse, [])

def digitsValue (base : Nat) (digits : List Char) : Nat :=
  digits.foldl (fun n c => n * base + (Text.hexDigit? c).getD 0) 0

/-- Reads an optional sign; true for a minus. -/
def sign : List Char → Bool × List Char
  | '-' :: rest => (true, rest)
  | '+' :: rest => (false, rest)
  | cs => (false, cs)

/-- Reads decimal digits without a leading zero, unless zero is all. -/
def wholeDigits : Scanner (List Char)
  | '0' :: rest => some (['0'], rest)
  | cs => digitRun Char.isDigit cs

/-! ### Integers -/

/-- Integers that fit into 64 bits with a sign. -/
def fitting (n : Int) : Option Int := if -0x8000000000000000 ≤ n ∧ n < 0x8000000000000000 then some n else none

/-- Reads an integer in base 16, 8, 2 or 10; only base 10 takes a sign. -/
def integer : Scanner Int
  | '0' :: 'x' :: rest => radix 16 (fun c => (Text.hexDigit? c).isSome) rest
  | '0' :: 'o' :: rest => radix 8 (fun c => '0' ≤ c && c ≤ '7') rest
  | '0' :: 'b' :: rest => radix 2 (fun c => c = '0' || c = '1') rest
  | cs => do
    let (negative, rest) := sign cs
    let (digits, rest) ← wholeDigits rest
    let n := digitsValue 10 digits
    let n ← fitting (if negative then -(n : Int) else n)
    some (n, rest)
where
  /-- Reads the digits after the letter of a base. -/
  radix (base : Nat) (isDigit : Char → Bool) : Scanner Int := fun cs => do
    let (digits, rest) ← digitRun isDigit cs
    let n ← fitting (digitsValue base digits)
    some (n, rest)

/-! ### Floating-point numbers -/

def power : Scanner Int := fun cs => do
  let (negative, rest) := sign cs
  let (digits, rest) ← digitRun Char.isDigit rest
  let n := digitsValue 10 digits
  some (if negative then -(n : Int) else n, rest)

/-- Reads an optional power of ten. -/
def scale? : Scanner Int
  | 'e' :: rest => power rest
  | 'E' :: rest => power rest
  | cs => some (0, cs)

/-- Reads a floating-point number: infinity, not a number, or digits with a fraction, a power of ten or both. A number
too large for the format is refused unless it is negative. -/
def float : Scanner Binary64 := fun cs =>
  let (negative, body) := sign cs
  match body with
  | 'i' :: 'n' :: 'f' :: rest => some (.infinite negative, rest)
  | 'n' :: 'a' :: 'n' :: rest => some (.nan, rest)
  | _ => do
    let (whole, rest) ← wholeDigits body
    match rest with
    | '.' :: rest => do
      let (fraction, rest) ← digitRun Char.isDigit rest
      let (scale, rest) ← scale? rest
      number negative (whole ++ fraction) (scale - fraction.length) rest
    | c :: rest =>
      if c = 'e' ∨ c = 'E' then do
        let (scale, rest) ← power rest
        number negative whole scale rest
      else none
    | [] => none
where
  /-- The nearest number, unless it is positive infinity. -/
  number (negative : Bool) (digits : List Char) (scale : Int) (rest : List Char) : Option (Binary64 × List Char) :=
    match Binary64.ofDecimal negative (digitsValue 10 digits) scale with
    | .infinite false => none
    | x => some (x, rest)

/-! ### Times -/

def fixedDigits (count : Nat) : Scanner Nat := fun cs =>
  let digits := cs.take count
  if digits.length = count ∧ digits.all Char.isDigit then some (digitsValue 10 digits, cs.drop count) else none

def mark (c : Char) (cs : List Char) : Option (List Char) :=
  match cs with
  | [] => none
  | d :: rest => if c = d then some rest else none

def date : Scanner Date := fun cs => do
  let (year, cs) ← fixedDigits 4 cs
  let cs ← mark '-' cs
  let (month, cs) ← fixedDigits 2 cs
  let cs ← mark '-' cs
  let (day, cs) ← fixedDigits 2 cs
  if 1 ≤ month ∧ month ≤ 12 ∧ 1 ≤ day ∧ day ≤ Date.daysIn year month then some (⟨year, month, day⟩, cs) else none

/-- Reads the fraction of a second, if there is one, to whole nanoseconds. -/
def secondFraction (cs : List Char) : Nat × List Char :=
  match cs with
  | '.' :: rest =>
    let digits := rest.takeWhile Char.isDigit
    if digits.isEmpty then (0, cs)
    else (digitsValue 10 ((digits ++ List.replicate 9 '0').take 9), rest.dropWhile Char.isDigit)
  | _ => (0, cs)

/-- Reads a time of day; a minute may have a leap second. -/
def time : Scanner Time := fun cs => do
  let (hour, cs) ← fixedDigits 2 cs
  let cs ← mark ':' cs
  let (minute, cs) ← fixedDigits 2 cs
  let cs ← mark ':' cs
  let (second, cs) ← fixedDigits 2 cs
  let (nanosecond, cs) := secondFraction cs
  if hour ≤ 23 ∧ minute ≤ 59 ∧ second ≤ 60 then some (⟨hour, minute, second, nanosecond⟩, cs) else none

def offset : Scanner Offset := fun cs =>
  match cs with
  | 'Z' :: rest => some (.zulu, rest)
  | 'z' :: rest => some (.zulu, rest)
  | c :: rest =>
    if c = '+' ∨ c = '-' then do
      let (hour, rest) ← fixedDigits 2 rest
      let rest ← mark ':' rest
      let (minute, rest) ← fixedDigits 2 rest
      let n : Int := hour * 60 + minute
      if hour ≤ 23 ∧ minute ≤ 59 then some (.minutes (if c = '-' then -n else n), rest) else none
    else none
  | [] => none

/-- Reads a point in time. A letter or one space divides the day from the time of day. -/
def dateTime : Scanner DateTime := fun cs =>
  match date cs with
  | none => (time cs).map fun (t, rest) => (.time t, rest)
  | some (d, rest) =>
    match timeAfterDate rest with
    | none => some (.date d, rest)
    | some (t, rest) =>
      match offset rest with
      | none => some (.civil d t, rest)
      | some (o, rest) => some (.instant d t o, rest)
where
  /-- Reads the mark that divides the day from the time, and the time. -/
  timeAfterDate : Scanner Time
    | [] => none
    | c :: rest => if c = 'T' ∨ c = 't' ∨ c = ' ' then time rest else none

/-- Reads a value that starts with a sign or a digit. -/
def numeric : Scanner Value := fun cs =>
  match dateTime cs with
  | some (t, rest) => some (.dateTime t, rest)
  | none =>
    match float cs with
    | some (x, rest) => some (.float x, rest)
    | none => (integer cs).map fun (n, rest) => (.integer n, rest)

end HostFleet.Toml
