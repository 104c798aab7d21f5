/-!
# Patterns

A pattern is a regular expression for the values of log fields. Patterns are read and checked, never matched, so they
keep of their text only what decides whether they are allowed: which characters and classes of characters they name, where
flags change how they are read, and how deeply they are nested.
-/

namespace HostFleet

namespace Pattern

/-- A flag that changes how the rest of a group is read or matched. -/
inductive Flag where
  | ignoreCase
  | multiLine
  | dotAll
  | lazy
  | unicode
  | lineEnds
  | spaced
  deriving DecidableEq, Repr

def Flag.ofChar? : Char → Option Flag
  | 'i' => some .ignoreCase
  | 'm' => some .multiLine
  | 's' => some .dotAll
  | 'U' => some .lazy
  | 'u' => some .unicode
  | 'R' => some .lineEnds
  | 'x' => some .spaced
  | _ => none

/-- Flags that are turned on or off. -/
abbrev Switches := List (Flag × Bool)

/-- A flag after some switches, given what it was before. -/
def Switches.apply (switches : Switches) (flag : Flag) (before : Bool) : Bool := (switches.lookup flag).getD before

/-- A character that stands for itself. -/
structure Literal where
  char : Char
  /-- Whether it is written as an octet, with two hexadecimal digits. -/
  octet : Bool := false
  deriving DecidableEq, Repr

/-- What stands between brackets. -/
inductive CharSet where
  | empty
  | literal (l : Literal)
  | range (first last : Literal)
  /-- A class with a name, such as the letters. -/
  | named (negated : Bool)
  /-- A class with a letter for its name, such as the digits. -/
  | shorthand (negated : Bool)
  | bracketed (negated : Bool) (set : CharSet)
  | union (sets : List CharSet)
  /-- What two sets have in common, or one or just one of them has. -/
  | combination (left right : CharSet)

/-- One set for several that stand side by side. -/
def CharSet.ofList : List CharSet → CharSet
  | [] => .empty
  | [set] => set
  | sets => .union sets

end Pattern

inductive Pattern where
  | empty
  | literal (l : Pattern.Literal)
  | dot
  /-- The start or the end of the text or of a line. -/
  | edge
  /-- The start or the end of a word, or a place that is neither. -/
  | boundary
  | shorthand (negated : Bool)
  | oneOf (negated : Bool) (set : Pattern.CharSet)
  | repetition (pattern : Pattern)
  /-- Flags for the rest of the group. -/
  | switch (switches : Pattern.Switches)
  | group (switches : Pattern.Switches) (pattern : Pattern)
  | sequence (patterns : List Pattern)
  | choice (patterns : List Pattern)

namespace Pattern

/-- One pattern for several that follow each other. -/
def ofSequence : List Pattern → Pattern
  | [] => .empty
  | [p] => p
  | ps => .sequence ps

def ofChoice : List Pattern → Pattern
  | [p] => p
  | ps => .choice ps

mutual

def CharSet.depth : CharSet → Nat
  | .bracketed _ set => set.depth + 1
  | .union sets => depthOfSets sets + 1
  | .combination left right => max left.depth right.depth + 1
  | _ => 0

def depthOfSets : List CharSet → Nat
  | [] => 0
  | set :: sets => max set.depth (depthOfSets sets)

end

mutual

/-- How deeply a pattern is nested. -/
def depth : Pattern → Nat
  | .oneOf _ set => set.depth + 1
  | .repetition p => p.depth + 1
  | .group _ p => p.depth + 1
  | .sequence ps => depthOfList ps + 1
  | .choice ps => depthOfList ps + 1
  | _ => 0

def depthOfList : List Pattern → Nat
  | [] => 0
  | p :: ps => max p.depth (depthOfList ps)

end

def depthLimit : Nat := 250

end Pattern

end HostFleet
