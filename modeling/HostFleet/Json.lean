import HostFleet.Decimal.Shortest
import HostFleet.NameMap

/-!
# JSON documents

The documents the program writes. `compact` puts a document on one line; `pretty` puts every item on a line of its own,
indented by two blanks for each level. Objects are written with their fields in the order they have; `object` makes one
from a map, so with sorted fields.
-/

namespace HostFleet

inductive Json where
  | null
  | bool (b : Bool)
  | int (n : Int)
  | float (x : Binary64)
  | text (s : String)
  | list (items : List Json)
  | record (members : List (String × Json))
  deriving Inhabited

namespace Json

/-- The object with the entries of a map as its fields. -/
def object (m : NameMap Json) : Json := .record m.entries

/-- The object with the given fields in sorted order. -/
def ofFields (l : List (String × Json)) : Json := .object (.ofList l)

def texts (l : List String) : Json := .list (l.map .text)

def text? : Option String → Json
  | some s => .text s
  | none => .null

/-- One character inside a written text: quotes, backslashes and control characters are escaped. -/
def escapeChar (c : Char) : String :=
  if c = '"' then "\\\""
  else if c = '\\' then "\\\\"
  else if c = '\n' then "\\n"
  else if c = '\r' then "\\r"
  else if c = '\t' then "\\t"
  else if c.toNat = 8 then "\\b"
  else if c.toNat = 12 then "\\f"
  else if c.toNat < 32 then
    "\\u00" ++ String.ofList [Nat.digitChar (c.toNat / 16), Nat.digitChar (c.toNat % 16)]
  else c.toString

def quote (s : String) : String := "\"" ++ String.join (s.toList.map escapeChar) ++ "\""

/-- A double as written in a document; JSON has no infinities. -/
def writeFloat (x : Binary64) : String := if x.isFinite then Decimal.Layout.document.write x else "null"

mutual

def compact : Json → String
  | .null => "null"
  | .bool b => if b then "true" else "false"
  | .int n => toString n
  | .float x => writeFloat x
  | .text s => quote s
  | .list items => "[" ++ compactItems items ++ "]"
  | .record members => "\x7b" ++ compactMembers members ++ "\x7d"

def compactItems : List Json → String
  | [] => ""
  | [item] => item.compact
  | item :: rest => item.compact ++ "," ++ compactItems rest

def compactMembers : List (String × Json) → String
  | [] => ""
  | [(name, value)] => quote name ++ ":" ++ value.compact
  | (name, value) :: rest => quote name ++ ":" ++ value.compact ++ "," ++ compactMembers rest

end

/-- The start of a line at a level. -/
def newLine (level : Nat) : String := "\n" ++ String.ofList (List.replicate (2 * level) ' ')

mutual

/-- A document that starts at a level. -/
def prettyAt (level : Nat) : Json → String
  | .null => "null"
  | .bool b => if b then "true" else "false"
  | .int n => toString n
  | .float x => writeFloat x
  | .text s => quote s
  | .list [] => "[]"
  | .list (item :: rest) => "[" ++ prettyItems (level + 1) (item :: rest) ++ newLine level ++ "]"
  | .record [] => "\x7b\x7d"
  | .record (first :: rest) => "\x7b" ++ prettyMembers (level + 1) (first :: rest) ++ newLine level ++ "\x7d"

def prettyItems (level : Nat) : List Json → String
  | [] => ""
  | [item] => newLine level ++ item.prettyAt level
  | item :: rest => newLine level ++ item.prettyAt level ++ "," ++ prettyItems level rest

def prettyMembers (level : Nat) : List (String × Json) → String
  | [] => ""
  | [(name, value)] => newLine level ++ quote name ++ ": " ++ value.prettyAt level
  | (name, value) :: rest =>
    newLine level ++ quote name ++ ": " ++ value.prettyAt level ++ "," ++ prettyMembers level rest

end

/-- A document with every item on a line of its own. -/
def pretty (document : Json) : String := document.prettyAt 0

end Json

end HostFleet
