import HostFleet.Text.Character

/-!
# Scanning TOML text

Blanks, comments, line ends, strings and keys. Every scanner takes the characters that are left and gives back what it
read together with what is left after it, or nothing when the text is not of its form.
-/

namespace HostFleet.Toml

/-- A scanner: what was read and the characters after it. -/
abbrev Scanner (α : Type) := List Char → Option (α × List Char)

def isBlank (c : Char) : Bool := c = ' ' || c = '\t'

/-- Characters that may stand in a comment and, quotes and backslashes aside, in a string: tabs, printing ASCII and
everything beyond ASCII. -/
def isPlain (c : Char) : Bool := c = '\t' || (0x20 ≤ c.toNat && c.toNat ≤ 0x7e) || 0x80 ≤ c.toNat

/-- Characters of keys without quotes. -/
def isBare (c : Char) : Bool := c.isAlphanum || c = '_' || c = '-'

def skipBlanks (cs : List Char) : List Char := cs.dropWhile isBlank

/-- What is left after one line end, if the text starts with one. -/
def newline? : List Char → Option (List Char)
  | '\n' :: rest => some rest
  | '\r' :: '\n' :: rest => some rest
  | _ => none

/-- What is left after a comment, if the text starts with one. -/
def skipComment : List Char → List Char
  | '#' :: rest => rest.dropWhile isPlain
  | cs => cs

/-- Reads to the end of a line that holds nothing more than blanks and a comment. -/
def lineEnd? (cs : List Char) : Option (List Char) :=
  match skipComment (skipBlanks cs) with
  | [] => some []
  | rest => newline? rest

/-- Skips blanks and line ends; `room` bounds the number of lines. -/
def skipSpace : (room : Nat) → List Char → List Char
  | 0, cs => skipBlanks cs
  | room + 1, cs =>
    match newline? (skipBlanks cs) with
    | none => skipBlanks cs
    | some rest => skipSpace room rest

/-- Skips blanks, comments and line ends; `room` bounds the number of lines. -/
def skipFiller : (room : Nat) → List Char → List Char
  | 0, cs => cs
  | room + 1, cs =>
    match newline? (skipComment (skipBlanks cs)) with
    | none => skipComment (skipBlanks cs)
    | some rest => skipFiller room rest

/-! ### Strings -/

/-- Reads a fixed number of hexadecimal digits as a character. -/
def hexEscape (width : Nat) : Scanner Char := fun cs =>
  if cs.length < width then none else (Text.hexChar? (cs.take width)).map (·, cs.drop width)

def escape : Scanner Char
  | 'b' :: rest => some ('\x08', rest)
  | 't' :: rest => some ('\t', rest)
  | 'n' :: rest => some ('\n', rest)
  | 'f' :: rest => some ('\x0c', rest)
  | 'r' :: rest => some ('\r', rest)
  | '"' :: rest => some ('"', rest)
  | '\\' :: rest => some ('\\', rest)
  | 'u' :: rest => hexEscape 4 rest
  | 'U' :: rest => hexEscape 8 rest
  | _ => none

/-- Reads the rest of a string on one line up to its closing quote. Only double quotes make the backslash special. -/
def lineString (quote : Char) : (room : Nat) → Scanner (List Char)
  | 0, _ => none
  | _ + 1, [] => none
  | room + 1, c :: rest =>
    if c = quote then some ([], rest)
    else if c = '\\' ∧ quote = '"' then do
      let (e, rest) ← escape rest
      let (s, rest) ← lineString quote room rest
      some (e :: s, rest)
    else if isPlain c then do
      let (s, rest) ← lineString quote room rest
      some (c :: s, rest)
    else none

/-- What is left after a backslash at the end of a line: the line end and all blanks and line ends after it. -/
def continuation? (cs : List Char) : Option (List Char) :=
  (newline? (skipBlanks cs)).map fun rest => skipSpace rest.length rest

/-- Reads the rest of a string over several lines up to its three closing quotes. Up to two quotes more in front of them
belong to the string. Line ends are read as a line feed. -/
def blockString (quote : Char) : (room : Nat) → Scanner (List Char)
  | 0, _ => none
  | room + 1, cs =>
    if [quote, quote, quote].isPrefixOf cs then
      let extra := min 2 ((cs.drop 3).takeWhile (· = quote)).length
      some (List.replicate extra quote, cs.drop (3 + extra))
    else
      match newline? cs with
      | some rest => do
        let (s, rest) ← blockString quote room rest
        some ('\n' :: s, rest)
      | none =>
        match cs with
        | [] => none
        | c :: rest =>
          if c = '\\' ∧ quote = '"' then
            match continuation? rest with
            | some rest => blockString quote room rest
            | none => do
              let (e, rest) ← escape rest
              let (s, rest) ← blockString quote room rest
              some (e :: s, rest)
          else if isPlain c then do
            let (s, rest) ← blockString quote room rest
            some (c :: s, rest)
          else none

def quotedLine : Scanner String
  | [] => none
  | quote :: rest =>
    if quote = '"' ∨ quote = '\x27' then (lineString quote (rest.length + 1) rest).map fun (s, rest) => (.ofList s, rest)
    else none

/-- Reads a string of any form with its quotes. A line end right after three opening quotes is not part of the string. -/
def string : Scanner String
  | [] => none
  | quote :: rest =>
    if (quote = '"' ∨ quote = '\x27') ∧ [quote, quote].isPrefixOf rest then
      let body := rest.drop 2
      let body := (newline? body).getD body
      (blockString quote (body.length + 1) body).map fun (s, rest) => (.ofList s, rest)
    else quotedLine (quote :: rest)

/-! ### Keys -/

/-- Reads one part of a key: a string of one line, or some bare characters. -/
def keyPart : Scanner String := fun cs =>
  match quotedLine cs with
  | some read => some read
  | none =>
    let bare := cs.takeWhile isBare
    if bare.isEmpty then none else some (.ofList bare, cs.dropWhile isBare)

/-- Reads the parts of a key, divided by dots with blanks around them; `room` bounds their number. -/
def keyParts : (room : Nat) → Scanner (List String)
  | 0, _ => none
  | room + 1, cs => do
    let (part, rest) ← keyPart (skipBlanks cs)
    match skipBlanks rest with
    | '.' :: rest => do
      let (parts, rest) ← keyParts room rest
      some (part :: parts, rest)
    | rest => some ([part], rest)

/-- How deep keys and values may be nested. -/
def nestingLimit : Nat := 80

/-- Reads a key with the blanks around it, as the path to a table and the name in it. -/
def key : Scanner (List String × String) := fun cs => do
  let (parts, rest) ← keyParts (nestingLimit - 1) cs
  let last ← parts.getLast?
  some ((parts.dropLast, last), rest)

end HostFleet.Toml
