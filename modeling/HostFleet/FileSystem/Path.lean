import HostFleet.Text.Utf8

/-!
# Paths

A path is the octets it is written with, so that it is shown as it was given. What it means is in its components: a root,
names, and the marks for "here" and "up".
-/

namespace HostFleet

/-- A name in a directory; names need not be text. -/
abbrev FileName := List UInt8

/-- A path as it is written. -/
structure Path where
  octets : List UInt8
  deriving DecidableEq, Repr, Inhabited

namespace Path

def ofText (s : String) : Path := ⟨Utf8.encode s⟩

instance : Coe String Path := ⟨ofText⟩

def slash : UInt8 := 0x2f

/-- The octet of the marks for "here" and "up", and between a stem and an extension. -/
def dot : UInt8 := 0x2e

def here : FileName := [dot]

def up : FileName := [dot, dot]

/-- The path as it is shown, with a mark for octets that are not text. -/
def text (p : Path) : String := Utf8.decodeLossy p.octets

def isAbsolute (p : Path) : Bool := p.octets.head? = some slash

/-- The path `q` taken from `p`. An absolute path stays as it is. -/
def join (p q : Path) : Path :=
  if q.isAbsolute ∨ p.octets = [] then q
  else if p.octets.getLast? = some slash then ⟨p.octets ++ q.octets⟩
  else ⟨p.octets ++ slash :: q.octets⟩

/-- What stands between the slashes, empty parts included. -/
def parts (p : Path) : List FileName := split p.octets
where
  /-- Octets divided at each slash. -/
  split : List UInt8 → List FileName
    | [] => [[]]
    | b :: rest =>
      if b = slash then [] :: split rest
      else
        match split rest with
        | [] => [[b]]
        | part :: parts => (b :: part) :: parts

inductive Component where
  | root
  | here
  | up
  | name (name : FileName)
  deriving DecidableEq, Repr

/-- The component that a part stands for, if it stands for any. -/
def Component.ofPart? (part : FileName) : Option Component :=
  if part = [] ∨ part = Path.here then none else if part = Path.up then some .up else some (.name part)

/-- The steps of a path. Empty parts vanish, and "here" counts only at the start of a relative path. -/
def components (p : Path) : List Component :=
  let steps := p.parts.filterMap Component.ofPart?
  if p.isAbsolute then .root :: steps
  else if p.parts.head? = some Path.here then .here :: steps
  else steps

def fileName? (p : Path) : Option FileName :=
  match p.components.getLast? with
  | some (.name n) => some n
  | _ => none

/-- A name divided at its last dot, unless that dot is missing or the first octet. -/
def divide (n : FileName) : FileName × Option FileName :=
  let after := (n.reverse.takeWhile (· ≠ dot)).reverse
  let before := n.take (n.length - after.length - 1)
  if before = [] then (n, none) else (before, some after)

def stem? (p : Path) : Option FileName := p.fileName?.map fun n => (divide n).1

def extension? (p : Path) : Option FileName := p.fileName?.bind fun n => (divide n).2

/-- The components after those of `base`, or all of them if the path does not start with `base`. -/
def componentsFrom (p base : Path) : List Component :=
  if base.components.isPrefixOf p.components then p.components.drop base.components.length else p.components

/-- The names among the components after those of `base`, as text with slashes between them. -/
def reference (p base : Path) : String :=
  "/".intercalate ((p.componentsFrom base).filterMap fun
    | .name n => some (Utf8.decodeLossy n)
    | _ => none)

/-- The names that are left when "here" vanishes and "up" takes away the name before it, from the root on. Where no name is
before it, "up" vanishes as well: above the root of a file system there is nothing, and a relative path is read as if it
started there. -/
def normal (p : Path) : List FileName :=
  p.parts.foldl (fun names part =>
    if part = [] ∨ part = here then names else if part = up then names.dropLast else names ++ [part]) []

end Path

end HostFleet
