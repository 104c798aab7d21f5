import HostFleet.Decimal.Binary64

/-!
# TOML values

The values a TOML document can hold. Tables keep their keys in the order in which the document introduces them, because
a reader of a document meets them in that order.
-/

namespace HostFleet.Toml

structure Date where
  year : Nat
  month : Nat
  day : Nat
  deriving DecidableEq, Repr

structure Time where
  hour : Nat
  minute : Nat
  second : Nat
  nanosecond : Nat
  deriving DecidableEq, Repr

/-- How far local time is from universal time. -/
inductive Offset where
  | zulu
  | minutes (n : Int)
  deriving DecidableEq, Repr

/-- A point in time, with as many of its parts as were given. -/
inductive DateTime where
  | instant (date : Date) (time : Time) (offset : Offset)
  | civil (date : Date) (time : Time)
  | date (date : Date)
  | time (time : Time)
  deriving DecidableEq, Repr

/-- A number with at least so many digits. -/
def padded (width n : Nat) : String :=
  let ds := Nat.toDigits 10 n
  String.ofList (List.replicate (width - ds.length) '0' ++ ds)

namespace Date

def isLeap (year : Nat) : Bool := year % 4 = 0 && (year % 100 ≠ 0 || year % 400 = 0)

def daysIn (year month : Nat) : Nat :=
  if month = 2 then (if isLeap year then 29 else 28)
  else if month = 4 ∨ month = 6 ∨ month = 9 ∨ month = 11 then 30
  else 31

def text (d : Date) : String := padded 4 d.year ++ "-" ++ padded 2 d.month ++ "-" ++ padded 2 d.day

end Date

/-- A fraction of a second in nanoseconds, without the zeros at its end; nothing for zero. -/
def Time.fraction (nanosecond : Nat) : String :=
  if nanosecond = 0 then ""
  else "." ++ String.ofList (((padded 9 nanosecond).toList.reverse.dropWhile (· = '0')).reverse)

def Time.text (t : Time) : String :=
  padded 2 t.hour ++ ":" ++ padded 2 t.minute ++ ":" ++ padded 2 t.second ++ fraction t.nanosecond

def Offset.text : Offset → String
  | .zulu => "Z"
  | .minutes n => (if n < 0 then "-" else "+") ++ padded 2 (n.natAbs / 60) ++ ":" ++ padded 2 (n.natAbs % 60)

def DateTime.text : DateTime → String
  | .instant d t o => d.text ++ "T" ++ t.text ++ o.text
  | .civil d t => d.text ++ "T" ++ t.text
  | .date d => d.text
  | .time t => t.text

inductive Value where
  | text (s : String)
  | integer (n : Int)
  | float (x : Binary64)
  | boolean (b : Bool)
  | dateTime (t : DateTime)
  | array (items : List Value)
  | table (entries : List (String × Value))
  deriving Inhabited

/-- The entries of a table in the order of the document. -/
abbrev Table := List (String × Value)

end HostFleet.Toml
