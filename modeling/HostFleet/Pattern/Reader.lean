import HostFleet.Pattern.Basic
import HostFleet.Text.Character

/-!
# Reading patterns

`Pattern.ofText?` reads the text of a pattern. Every reader takes the characters that are left and gives back what it read
together with what is left after it, or nothing when the text is not of its form. Under the flag `spaced`, blanks and
comments between the parts of a pattern do not count.

Patterns stand between braces, so they hold no closing brace: what needs one, such as a counted repetition, is never
complete and not read at all.
-/

namespace HostFleet.Pattern

/-- Skips blanks and comments, which reach from a number sign to the end of the line. -/
def skipComments (inside : Bool) : List Char → List Char
  | [] => []
  | c :: cs =>
    if inside then skipComments (c ≠ '\n') cs
    else if Text.blank c then skipComments false cs
    else if c = '#' then skipComments true cs
    else c :: cs

/-- Skips what does not count. -/
def skip (spaced : Bool) (cs : List Char) : List Char := if spaced then skipComments false cs else cs

/-- The next character that counts. A comment is not skipped here, only its number sign; where nothing counts, it is the
next character at all. -/
def peek (spaced : Bool) (cs : List Char) : Option Char :=
  if spaced then
    let visible := match cs.dropWhile Text.blank with
      | '#' :: rest => rest.dropWhile Text.blank
      | rest => rest
    visible.head? <|> cs.head?
  else cs.head?

/-! ### Characters -/

/-- What a single character or an escape stands for. -/
inductive Atom where
  | literal (l : Literal)
  | shorthand (negated : Bool)
  | edge
  | boundary
  deriving DecidableEq, Repr

def hexDigits (spaced : Bool) : (count : Nat) → List Char → Option (List Char × List Char)
  | 0, cs => some ([], cs)
  | _ + 1, [] => none
  | count + 1, c :: cs =>
    if (Text.hexDigit? c).isSome then
      (hexDigits spaced count (skip spaced cs)).map fun (digits, rest) => (c :: digits, rest)
    else none

/-- The character that a letter after a backslash stands for. -/
def control? : Char → Option Char
  | 'a' => some '\x07'
  | 'f' => some '\x0c'
  | 't' => some '\t'
  | 'n' => some '\n'
  | 'r' => some '\r'
  | 'v' => some '\x0b'
  | _ => none

/-- What one character after a backslash stands for. Signs stand for themselves. -/
def escaped? (c : Char) : Option Atom :=
  if c ∈ ['d', 's', 'w'] then some (.shorthand false)
  else if c ∈ ['D', 'S', 'W'] then some (.shorthand true)
  else if c ∈ ['A', 'z'] then some .edge
  else if c ∈ ['b', 'B', '<', '>'] then some .boundary
  else if c.toNat < 128 ∧ !c.isAlphanum then some (.literal ⟨c, false⟩)
  else (control? c).map fun c => .literal ⟨c, false⟩

/-- Reads what follows a backslash: the number of a character, or one character. -/
def escape (spaced : Bool) : List Char → Option (Atom × List Char)
  | [] => none
  | c :: cs =>
    let numbered (count : Nat) : Option (Atom × List Char) := do
      let (digits, rest) ← hexDigits spaced count (skip spaced cs)
      let char ← Text.hexChar? digits
      return (.literal ⟨char, count = 2⟩, rest)
    match c with
    | 'x' => numbered 2
    | 'u' => numbered 4
    | 'U' => numbered 8
    | c => (escaped? c).map (·, cs)

/-! ### Sets -/

def classNames : List String :=
  ["alnum", "alpha", "ascii", "blank", "cntrl", "digit", "graph", "lower", "print", "punct", "space", "upper", "word",
    "xdigit"]

/-- Reads a class with a name after its opening bracket, and says whether it is negated. -/
def namedClass : List Char → Option (Bool × List Char)
  | ':' :: cs =>
    let (negated, cs) := match cs with
      | '^' :: cs => (true, cs)
      | cs => (false, cs)
    match cs.dropWhile (· ≠ ':') with
    | ':' :: ']' :: rest =>
      if classNames.contains (String.ofList (cs.takeWhile (· ≠ ':'))) then some (negated, rest) else none
    | _ => none
  | _ => none

def negation (spaced : Bool) (cs : List Char) : Bool × List Char :=
  match skip spaced cs with
  | '^' :: rest => (true, rest)
  | rest => (false, rest)

def setAtom (spaced : Bool) : List Char → Option (Atom × List Char)
  | [] => none
  | '\\' :: cs => escape spaced cs
  | c :: cs => some (.literal ⟨c, false⟩, cs)

/-- Reads a character of a set, or a range between two. A hyphen before another one or before the end makes no range. -/
def setItem (spaced : Bool) (cs : List Char) : Option (CharSet × List Char) := do
  let (first, rest) ← setAtom spaced cs
  let rest := skip spaced rest
  let alone : Option (CharSet × List Char) := match first with
    | .literal l => some (.literal l, rest)
    | .shorthand negated => some (.shorthand negated, rest)
    | _ => none
  match rest with
  | [] => none
  | '-' :: after =>
    if peek spaced after = some ']' ∨ peek spaced after = some '-' then alone
    else
      let (last, rest) ← setAtom spaced (skip spaced after)
      match first, last with
      | .literal a, .literal b => if a.char ≤ b.char then some (.range a b, rest) else none
      | _, _ => none
  | _ => alone

/-- The set so far: what stands on the left of the last sign between sets, if there is one, with the items after it. -/
def setSoFar (left : Option CharSet) (items : List CharSet) : CharSet :=
  match left with
  | none => .ofList items.reverse
  | some left => .combination left (.ofList items.reverse)

/-- Reads a set up to its closing bracket. `left` stands on the left of the last sign between sets and `items` after it,
the last one first. At the start hyphens stand for themselves, and so does a closing bracket that is the first item. -/
def setBody (spaced : Bool) :
    (fuel : Nat) → (start : Bool) → (left : Option CharSet) → (items : List CharSet) → List Char →
      Option (CharSet × List Char)
  | 0, _, _, _, _ => none
  | fuel + 1, start, left, items, cs =>
    let sign (rest : List Char) := setBody spaced fuel false (some (setSoFar left items)) [] rest
    match skip spaced cs with
    | [] => none
    | '[' :: rest =>
      match namedClass rest with
      | some (negated, rest) => setBody spaced fuel false left (.named negated :: items) rest
      | none => do
        let (negated, rest) := negation spaced rest
        let (inner, rest) ← setBody spaced fuel true none [] rest
        setBody spaced fuel false left (.bracketed negated inner :: items) rest
    | ']' :: rest =>
      if start ∧ items.isEmpty then setBody spaced fuel false left [.literal ⟨']', false⟩] rest
      else some (setSoFar left items, rest)
    | '&' :: '&' :: rest => sign rest
    | '~' :: '~' :: rest => sign rest
    | '-' :: rest =>
      if start then setBody spaced fuel true left (.literal ⟨'-', false⟩ :: items) rest
      else
        match rest with
        | '-' :: rest => sign rest
        | _ => do
          let (item, rest) ← setItem spaced ('-' :: rest)
          setBody spaced fuel false left (item :: items) rest
    | cs => do
      let (item, rest) ← setItem spaced cs
      setBody spaced fuel false left (item :: items) rest

/-! ### Groups -/

/-- What opens a group or stands in place of one. -/
inductive Opening where
  | group (name : Option String) (switches : Switches)
  | switch (switches : Switches)

/-- Reads flags up to a colon or a closing parenthesis, which it gives back. Each flag may stand there once; those after a
hyphen, of which there is one at most, are turned off. -/
def switches (off dangling : Bool) (seen : Switches) : List Char → Option (Switches × Char × List Char)
  | [] => none
  | c :: cs =>
    if c = ':' ∨ c = ')' then if dangling then none else some (seen, c, cs)
    else if c = '-' then if off then none else switches true true seen cs
    else
      match Flag.ofChar? c with
      | none => none
      | some flag => if (seen.lookup flag).isSome then none else switches off false ((flag, !off) :: seen) cs

/-- Whether a group may have a name. -/
def groupName : List Char → Bool
  | [] => false
  | c :: cs =>
    (c = '_' || Text.alphabetic c)
      && cs.all fun c => c = '_' || c = '.' || c = '[' || c = ']' || Text.alphanumeric c

def named (cs : List Char) : Option (Opening × List Char) :=
  let name := cs.takeWhile (· ≠ '>')
  match cs.dropWhile (· ≠ '>') with
  | '>' :: rest => if groupName name then some (.group (some (String.ofList name)) [], rest) else none
  | _ => none

/-- Reads what follows an opening parenthesis. Nothing looks ahead or behind. -/
def opening : List Char → Option (Opening × List Char)
  | '?' :: '<' :: '=' :: _ => none
  | '?' :: '<' :: '!' :: _ => none
  | '?' :: '<' :: cs => named cs
  | '?' :: 'P' :: '<' :: cs => named cs
  | '?' :: cs => do
    let (seen, stop, rest) ← switches false false [] cs
    if stop = ':' then some (.group none seen, rest)
    else if seen.isEmpty then none
    else some (.switch seen, rest)
  | cs => some (.group none [], cs)

/-! ### Patterns -/

/-- What was read up to the end of a group: the pattern, the names of groups so far, and what is left. -/
structure Reading where
  pattern : Pattern
  names : List String
  rest : List Char

def atom (spaced : Bool) : List Char → Option (Pattern × List Char)
  | [] => none
  | '\\' :: cs => (escape spaced cs).map fun (a, rest) =>
    (match a with
      | .literal l => .literal l
      | .shorthand negated => .shorthand negated
      | .edge => .edge
      | .boundary => .boundary, rest)
  | '.' :: cs => some (.dot, cs)
  | '^' :: cs => some (.edge, cs)
  | '$' :: cs => some (.edge, cs)
  | c :: cs => some (.literal ⟨c, false⟩, cs)

/-- The items with the last one repeated. Flags and nothing cannot be repeated. -/
def repeated : List Pattern → Option (List Pattern)
  | [] => none
  | .switch _ :: _ => none
  | p :: items => some (.repetition p :: items)

/-- Skips the sign that makes a repetition take as little as it can. -/
def skipLazy : List Char → List Char
  | '?' :: cs => cs
  | cs => cs

/-- Reads up to the end or to a closing parenthesis. `branches` are the alternatives that are complete and `items` the
parts of the one that is not, the last one first. No two groups have the same name. -/
def body :
    (fuel : Nat) → (spaced : Bool) → (names : List String) → (branches items : List Pattern) → List Char → Option Reading
  | 0, _, _, _, _, _ => none
  | fuel + 1, spaced, names, branches, items, cs =>
    let branch := ofSequence items.reverse
    let complete (rest : List Char) : Option Reading := some ⟨ofChoice (branch :: branches).reverse, names, rest⟩
    let again (rest : List Char) : Option Reading := do
      body fuel spaced names branches (← repeated items) (skipLazy rest)
    match skip spaced cs with
    | [] => complete []
    | ')' :: rest => complete (')' :: rest)
    | '|' :: rest => body fuel spaced names (branch :: branches) [] rest
    | '?' :: rest => again rest
    | '*' :: rest => again rest
    | '+' :: rest => again rest
    | '\x7b' :: _ => none
    | '[' :: rest => do
      let (negated, rest) := negation spaced rest
      let (inner, rest) ← setBody spaced (rest.length + 1) true none [] rest
      body fuel spaced names branches (.oneOf negated inner :: items) rest
    | '(' :: rest => do
      let (opening, rest) ← opening (skip spaced rest)
      match opening with
      | .switch seen => body fuel (seen.apply .spaced spaced) names branches (.switch seen :: items) rest
      | .group name seen =>
        if name.any names.contains then none
        else
          let inner ← body fuel (seen.apply .spaced spaced) (name.toList ++ names) [] [] rest
          match inner.rest with
          | ')' :: rest => body fuel spaced inner.names branches (.group seen inner.pattern :: items) rest
          | _ => none
    | cs => do
      let (item, rest) ← atom spaced cs
      body fuel spaced names branches (item :: items) rest

def ofText? (text : String) : Option Pattern := do
  let reading ← body (text.length + 1) false [] [] [] text.toList
  if reading.rest.isEmpty ∧ reading.pattern.depth ≤ depthLimit then some reading.pattern else none

end HostFleet.Pattern
