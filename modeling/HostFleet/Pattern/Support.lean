import HostFleet.Pattern.Reader

/-!
# Patterns that can be matched

What a pattern may ask for depends on its flags. Patterns are about characters unless the flag `unicode` is turned off;
they are then about octets and must not match part of a character. There are no tables of the cases, the classes and the
words of all scripts, so what needs them is refused.
-/

namespace HostFleet

inductive PatternFault where
  /-- It is no pattern, or it asks for a table that there is not. -/
  | unreadable
  /-- It asks where the words of any script start or end. -/
  | wordBoundary
  deriving DecidableEq, Repr

def PatternFault.message : PatternFault → String
  | .unreadable => "error building NFA"
  | .wordBoundary =>
    "unsupported regex feature for DFAs: cannot build DFAs for regexes with Unicode word boundaries; "
      ++ "switch to ASCII word boundaries, or heuristically enable Unicode word boundaries "
      ++ "or use a different regex engine"

namespace Pattern

/-- The flags that decide what is allowed. -/
structure Mode where
  ignoreCase : Bool := false
  unicode : Bool := true
  deriving DecidableEq, Repr

def Mode.after (mode : Mode) (switches : Switches) : Mode :=
  ⟨switches.apply .ignoreCase mode.ignoreCase, switches.apply .unicode mode.unicode⟩

/-- Whether a character may be asked for. Of an octet that is part of a character only the whole character may. -/
def Literal.allowed (l : Literal) (mode : Mode) : Bool :=
  if mode.unicode then !mode.ignoreCase else !l.octet || l.char.toNat < 128

def shorthandAllowed (negated : Bool) (mode : Mode) : Bool := !mode.unicode && !negated

/-- Whether a set may be negated. Among octets, what is not in a set is part of a character. -/
def negationAllowed (negated : Bool) (mode : Mode) : Bool := mode.unicode || !negated

mutual

/-- Whether a set may be asked for. Among octets it holds only the basic alphabet. -/
def CharSet.allowed (mode : Mode) : CharSet → Bool
  | .empty => true
  | .literal l => if mode.unicode then !mode.ignoreCase else l.char.toNat < 128
  | .range first last =>
    if mode.unicode then !mode.ignoreCase else first.char.toNat < 128 && last.char.toNat < 128
  | .named negated => if mode.unicode then !mode.ignoreCase else !negated
  | .shorthand negated => shorthandAllowed negated mode
  | .bracketed negated set => set.allowed mode && negationAllowed negated mode
  | .union sets => setsAllowed mode sets
  | .combination left right => left.allowed mode && right.allowed mode

def setsAllowed (mode : Mode) : List CharSet → Bool
  | [] => true
  | set :: sets => set.allowed mode && setsAllowed mode sets

end

/-- What is known after a part of a pattern that is allowed. -/
structure Finding where
  mode : Mode
  /-- Whether the start or the end of a word of any script was asked for. -/
  wordBoundary : Bool
  deriving DecidableEq, Repr

/-- A finding that stays as it is if a condition holds. -/
def Finding.provided (finding : Finding) (allowed : Bool) : Option Finding := if allowed then some finding else none

mutual

/-- What is known after a pattern, given what was before, if the pattern is allowed. Flags hold up to the end of the
group, also in later alternatives. -/
def examine (before : Finding) : Pattern → Option Finding
  | .empty => some before
  | .edge => some before
  | .literal l => before.provided (l.allowed before.mode)
  | .dot => before.provided before.mode.unicode
  | .boundary => some { before with wordBoundary := before.wordBoundary || before.mode.unicode }
  | .shorthand negated => before.provided (shorthandAllowed negated before.mode)
  | .oneOf negated set => before.provided (set.allowed before.mode && negationAllowed negated before.mode)
  | .repetition p => p.examine before
  | .switch switches => some { before with mode := before.mode.after switches }
  | .group switches p =>
    (p.examine { before with mode := before.mode.after switches }).map fun f => { f with mode := before.mode }
  | .sequence ps => examineAll before ps
  | .choice ps => examineAll before ps

def examineAll (before : Finding) : List Pattern → Option Finding
  | [] => some before
  | p :: ps => (p.examine before).bind fun f => examineAll f ps

end

/-- Why a text cannot be used as a pattern, if it cannot. -/
def fault? (text : String) : Option PatternFault :=
  match (ofText? text).bind (examine ⟨{}, false⟩) with
  | none => some .unreadable
  | some finding => if finding.wordBoundary then some .wordBoundary else none

end Pattern

end HostFleet
