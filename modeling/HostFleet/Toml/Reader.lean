import HostFleet.Toml.Draft
import HostFleet.Toml.Number

/-!
# Reading TOML documents

`parse?` gives the table that a document writes, or nothing when the text is no TOML document.
-/

namespace HostFleet.Toml

def word (letters : List Char) (v : Value) : Scanner Value := fun cs =>
  if letters.isPrefixOf cs then some (v, cs.drop letters.length) else none

/-- Reads a value that holds no other. -/
def scalar : Scanner Value
  | [] => none
  | c :: rest =>
    if c = '"' ∨ c = '\x27' then (string (c :: rest)).map fun (s, rest) => (.text s, rest)
    else if c.isDigit ∨ c = '+' ∨ c = '-' then numeric (c :: rest)
    else if c = 't' then word ['t', 'r', 'u', 'e'] (.boolean true) (c :: rest)
    else if c = 'f' then word ['f', 'a', 'l', 's', 'e'] (.boolean false) (c :: rest)
    else if c = 'i' then word ['i', 'n', 'f'] (.float (.infinite false)) (c :: rest)
    else if c = 'n' then word ['n', 'a', 'n'] (.float .nan) (c :: rest)
    else none

/-- Reads the items of an array up to the closing bracket. Items may stand on several lines, and a comma may follow the
last one. -/
def items (item : Scanner Value) : (room : Nat) → Scanner (List Value)
  | 0, _ => none
  | room + 1, cs =>
    match skipFiller cs.length cs with
    | ']' :: rest => some ([], rest)
    | cs => do
      let (v, rest) ← item cs
      match skipFiller rest.length rest with
      | ',' :: rest => do
        let (vs, rest) ← items item room rest
        some (v :: vs, rest)
      | ']' :: rest => some ([v], rest)
      | _ => none

def assignment (item : Scanner Value) : Scanner ((List String × String) × Value) := fun cs => do
  let (k, rest) ← key cs
  let rest ← mark '=' rest
  let (v, rest) ← item (skipBlanks rest)
  some ((k, v), rest)

/-- Reads the entries of a table on one line up to the closing brace, adding them to those read before. -/
def members (item : Scanner Value) : (room : Nat) → Draft → Scanner Draft
  | 0, _, _ => none
  | room + 1, draft, cs => do
    let (((path, name), v), rest) ← assignment item cs
    let draft ← draft |> Draft.define path name v .header
    match skipBlanks rest with
    | ',' :: rest => members item room draft rest
    | '\x7d' :: rest => some (draft, rest)
    | _ => none

/-- Reads a value; `depth` bounds the nesting of arrays and tables in it. -/
def value : (depth : Nat) → Scanner Value
  | depth + 1, '[' :: rest => (items (value depth) (rest.length + 1) rest).map fun (vs, rest) => (.array vs, rest)
  | depth + 1, '\x7b' :: rest =>
    match skipBlanks rest with
    | '\x7d' :: rest => some (.table [], rest)
    | rest =>
      (members (value depth) (rest.length + 1) [] rest).map fun (draft, rest) => (.table (finishEntries draft), rest)
  | _, cs => scalar cs

def header (closing : List Char) : Scanner (List String × String) := fun cs => do
  let (k, rest) ← key cs
  if closing.isPrefixOf rest then some (k, rest.drop closing.length) else none

/-- A document read in part: its tables so far, and the path of the table that the next entries belong to. -/
structure Progress where
  draft : Draft := []
  here : List String := []

namespace Progress

/-- Takes one header or entry. The text starts with neither a blank nor a line end. -/
def statement (p : Progress) : Scanner Progress
  | '[' :: '[' :: rest => do
    let ((path, name), rest) ← header [']', ']'] rest
    let draft ← p.draft |> Draft.edit false (fun _ => Draft.openElement name) path .header
    some (⟨draft, path ++ [name]⟩, rest)
  | '[' :: rest => do
    let ((path, name), rest) ← header [']'] rest
    let draft ← p.draft |> Draft.edit false (fun _ => Draft.openTable name) path .header
    some (⟨draft, path ++ [name]⟩, rest)
  | cs => do
    let (((path, name), v), rest) ← assignment (value (nestingLimit - 1)) cs
    let draft ← p.draft |> Draft.edit false (Draft.define path name v) p.here .header
    some (⟨draft, p.here⟩, rest)

/-- Takes the lines of a document; `room` bounds their number. -/
def lines : (room : Nat) → Progress → List Char → Option Progress
  | 0, _, _ => none
  | room + 1, p, cs =>
    match skipBlanks cs with
    | [] => some p
    | cs => do
      if cs.head? = some '#' ∨ (newline? cs).isSome then
        let rest ← lineEnd? cs
        lines room p rest
      else
        let (p, rest) ← p.statement cs
        let rest ← lineEnd? rest
        lines room p rest

end Progress

/-- The table that a document writes. A byte order mark at its start is skipped. -/
def parse? (text : String) : Option Table :=
  let cs := match text.toList with
    | '\ufeff' :: rest => rest
    | cs => cs
  (Progress.lines (cs.length + 1) {} cs).map fun p => finishEntries p.draft

end HostFleet.Toml
