/-!
# Octets and text

File names and file contents are octets, names and messages are text. `decode?` reads octets as UTF-8 and refuses
anything else; `decodeLossy` reads any octets, putting one replacement character where the longest possible start of a
character breaks off. Both read the pieces that `pieces` cuts the octets into.
-/

namespace HostFleet.Utf8

def encode (s : String) : List UInt8 := s.toList.flatMap String.utf8EncodeChar

/-- A character that has begun: how many octets it still needs, the bounds of the next one, and its bits so far. -/
structure Open where
  need : Nat
  low : Nat
  high : Nat
  code : Nat
  deriving DecidableEq, Repr

/-- What one octet does between characters: it is a character, begins one, or can do neither. -/
def start (octet : UInt8) : List (Option Char) × Option Open :=
  let b := octet.toNat
  if b < 0x80 then ([some (Char.ofNat b)], none)
  else if 0xC2 ≤ b ∧ b ≤ 0xDF then ([], some ⟨1, 0x80, 0xBF, b - 0xC0⟩)
  else if b = 0xE0 then ([], some ⟨2, 0xA0, 0xBF, 0⟩)
  else if b = 0xED then ([], some ⟨2, 0x80, 0x9F, 0xD⟩)
  else if 0xE1 ≤ b ∧ b ≤ 0xEF then ([], some ⟨2, 0x80, 0xBF, b - 0xE0⟩)
  else if b = 0xF0 then ([], some ⟨3, 0x90, 0xBF, 0⟩)
  else if 0xF1 ≤ b ∧ b ≤ 0xF3 then ([], some ⟨3, 0x80, 0xBF, b - 0xF0⟩)
  else if b = 0xF4 then ([], some ⟨3, 0x80, 0x8F, 4⟩)
  else ([none], none)

/-- What one octet does: an open character takes it if it lies within the bounds, and breaks off before it otherwise. -/
def feed (state : Option Open) (octet : UInt8) : List (Option Char) × Option Open :=
  match state with
  | none => start octet
  | some o =>
    let b := octet.toNat
    if o.low ≤ b ∧ b ≤ o.high then
      let code := o.code * 64 + b % 64
      if o.need ≤ 1 then ([some (Char.ofNat code)], none) else ([], some ⟨o.need - 1, 0x80, 0xBF, code⟩)
    else
      let (out, next) := start octet
      (none :: out, next)

/-- The characters of the octets in order, with `none` for each stretch that is the start of no character. -/
def pieces (state : Option Open) : List UInt8 → List (Option Char)
  | [] => if state.isSome then [none] else []
  | b :: rest =>
    let (out, next) := feed state b
    out ++ pieces next rest

/-- The text that octets encode, if they encode one. -/
def decode? (octets : List UInt8) : Option String :=
  ((pieces none octets).mapM id).map String.ofList

/-- Octets as text, with U+FFFD for every stretch that encodes nothing. -/
def decodeLossy (octets : List UInt8) : String :=
  String.ofList ((pieces none octets).map fun c => c.getD '�')

end HostFleet.Utf8
