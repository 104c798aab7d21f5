import HostFleet.Log.Event
import HostFleet.Log.FieldCondition
import HostFleet.Text.Character
import HostFleet.Text.Utf8

/-!
# Log directives

A directive sets a level for some events: `LEVEL`, `TARGET`, `TARGET=LEVEL`, or with a context in brackets
`TARGET[SPAN]=LEVEL` or `TARGET[SPAN{FIELD}]=LEVEL`, where the target, the span and the level may be left out. `ofText`
reads one. Blanks around a directive do not count where its marks are looked for, but each part is then taken from the
whole text at the place that was found: blanks in front make every part start and end too early.
-/

namespace HostFleet.Log

/-- The rank that a level writes, as its name in letters of any case or as a number. -/
def rank? (level : String) : Option Nat :=
  match (level.toList.map Char.toLower) with
  | ['o', 'f', 'f'] => some 0
  | ['e', 'r', 'r', 'o', 'r'] => some 1
  | ['w', 'a', 'r', 'n'] => some 2
  | ['i', 'n', 'f', 'o'] => some 3
  | ['d', 'e', 'b', 'u', 'g'] => some 4
  | ['t', 'r', 'a', 'c', 'e'] => some 5
  | cs =>
    let digits := if cs.head? = some '+' then cs.drop 1 else cs
    let value := digits.foldl (fun n c => 10 * n + (c.toNat - '0'.toNat)) 0
    if digits ≠ [] ∧ digits.all Char.isDigit ∧ value ≤ 5 then some value else none

def allRanks : Nat := Level.trace.rank

/-- The least important level that is shown for some events, by its rank; rank zero shows nothing. -/
structure Directive where
  /-- What the path of the source starts with. -/
  target : String
  /-- The span that the event stands in. -/
  span : Option String := none
  field : Option FieldCondition := none
  rank : Nat
  deriving DecidableEq, Repr

inductive DirectiveFault where
  /-- The marks of the text are not those of a directive. -/
  | form
  /-- What stands where the level belongs is none. -/
  | level
  /-- The value of a field is no pattern. -/
  | field (fault : PatternFault)
  deriving DecidableEq, Repr

def DirectiveFault.message : DirectiveFault → String
  | .form => "invalid filter directive"
  | .level =>
    "error parsing level filter: expected one of \"off\", \"error\", \"warn\", \"info\", \"debug\", \"trace\", "
      ++ "or a number 0-5"
  | .field fault => "invalid field filter: " ++ fault.message

/-- The text between two places, counted in octets. No place may lie inside a character. -/
def between (text : String) (first last : Nat) : Except DirectiveFault String :=
  match Utf8.decode? (((Utf8.encode text).drop first).take (last - first)) with
  | none => .error .form
  | some part => .ok part

/-- The first place from the given one on that holds one of some marks, and the mark. -/
def mark? (octets : List UInt8) (first : Nat) (marks : List Char) : Option (Nat × Char) := do
  let offset ← (octets.drop first).findIdx? fun o => marks.any fun m => m.toNat = o.toNat
  let found ← marks.find? fun m => (octets.drop first)[offset]?.any fun o => m.toNat = o.toNat
  return (first + offset, found)

namespace Directive

def opens (c : Char) : Bool := c = '[' || c = '-' || c = ':' || c = '_' || Text.alphanumeric c

/-- The rank from a place to the end of the text. Where nothing is left, everything is shown. -/
def rankFrom (text : String) (first : Nat) : Except DirectiveFault Nat := do
  let level ← between text first (Utf8.encode text).length
  if level = "" then return allRanks
  match rank? level with
  | none => throw .level
  | some rank => return rank

/-- The rank after the context in brackets: a level after an equals sign, or everything at the end. -/
def rankAfter (text : String) (octets : List UInt8) (first : Nat) : Except DirectiveFault Nat :=
  match octets.drop first with
  | [] => .ok allRanks
  | o :: _ => if o.toNat = '='.toNat then rankFrom text (first + 1) else .error .form

/-- Reads the context in brackets, and what follows it, from behind the opening bracket on. -/
def withContext (text : String) (octets : List UInt8) (target : String) (first : Nat) :
    Except DirectiveFault Directive :=
  match mark? octets first [']', '\x7b'] with
  | none => .error .form
  | some (spanEnd, ']') => do
    let span ← between text first spanEnd
    let rank ← rankAfter text octets (spanEnd + 1)
    return { target, span := some span, rank }
  | some (spanEnd, _) => do
    let span ← between text first spanEnd
    let some (fieldEnd, _) := mark? octets (spanEnd + 1) ['\x7d'] | throw .form
    let field ← between text (spanEnd + 1) fieldEnd
    if field = "" then throw .form
    let condition ← (FieldCondition.ofText field).mapError .field
    let some (close, _) := mark? octets (fieldEnd + 1) [']'] | throw .form
    if close ≠ fieldEnd + 1 then throw .form
    let rank ← rankAfter text octets (close + 1)
    return { target, span := if span = "" then none else some span, field := some condition, rank }

/-- Reads a directive. A text without marks is a level if it can be one, and otherwise a target that shows everything. -/
def ofText (text : String) : Except DirectiveFault Directive :=
  let inner := Text.trimBlanks text.toList
  let octets := Utf8.encode (String.ofList inner)
  if !inner.head?.any opens then .error .form
  else
    match mark? octets 0 ['=', '['] with
    | none =>
      match rank? text with
      | some rank => .ok { target := "", rank }
      | none => .ok { target := text, rank := allRanks }
    | some (targetEnd, '=') => do
      let target ← between text 0 targetEnd
      let rank ← rankFrom text (targetEnd + 1)
      return { target, rank }
    | some (targetEnd, _) => do
      let target ← between text 0 targetEnd
      withContext text octets target (targetEnd + 1)

/-- Whether the directive is about an event of a source. Events stand in no span and have only a message. -/
def covers (d : Directive) (source : Source) : Bool :=
  d.target.toList.isPrefixOf source.path.toList && d.span.isNone
    && d.field.all fun f => f.name = "message" && f.value.isNone

/-- Whether the directive yields to another one about the same events: a longer target is closer to them, and so is a
field. -/
def yields (d other : Directive) : Bool :=
  d.target.length < other.target.length
    || d.target.length = other.target.length && (d.field.isNone || other.field.isSome)

end Directive

end HostFleet.Log
