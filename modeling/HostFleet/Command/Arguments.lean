import HostFleet.Command.Basic

/-!
# The command line

A command line names a command, with options for the whole program before or after that name and options and arguments
of the command after it. Arguments are read from left to right, and the first one that cannot be is the fault. The value
of an option that stands in an argument of its own is taken at the next option or at the end.
-/

namespace HostFleet.Arguments

/-- Why the arguments are not a request that can be carried out. -/
inductive UsageFault where
  | help
  | version
  /-- There are no arguments that say anything. -/
  | nothingAsked
  | missingCommand
  | unknownCommand
  | missingHost
  | unknownArgument
  /-- An option has no value, or one that it does not take. -/
  | badValue
  /-- A value is given to an option that takes none. -/
  | extraValue
  | repeated
  deriving DecidableEq, Repr

inductive Verb where
  | list
  | inspect
  | eval
  | check
  | version
  deriving DecidableEq, Repr

def Verb.ofName? : String → Option Verb
  | "list" => some .list
  | "show" => some .inspect
  | "eval" => some .eval
  | "check" => some .check
  | "version" => some .version
  | _ => none

def helpName : String := "help"

/-- Where in the line an argument stands: before the name of a command, or after it. -/
inductive Place where
  | front
  | behind (verb : Verb)
  deriving DecidableEq, Repr

/-- An option that takes a value. -/
inductive Slot where
  | root
  | format
  deriving DecidableEq, Repr

def Place.slot? (place : Place) (name : String) : Option Slot :=
  if name = "root" then some .root
  else if name = "format" ∧ (place = .behind .inspect ∨ place = .behind .eval) then some .format
  else none

/-- What was given so far at one place. -/
structure Given where
  verbose : Bool := false
  root : Option String := none
  format : Option Format := none
  host : Option String := none
  /-- An option whose value is not taken yet, and that value once it was read. -/
  pending : Option (Slot × Option String) := none
  /-- Whether everything from here on is an argument, whatever it looks like. -/
  plain : Bool := false

namespace Given

def format? : String → Option Format
  | "deploy" => some .deploy
  | "system" => some .system
  | _ => none

/-- Takes the value of an option, which must be its first. -/
def put (g : Given) : Slot → String → Except UsageFault Given
  | .root, v =>
    if g.root.isSome then .error .repeated
    else if v = "" then .error .badValue
    else .ok { g with root := some v }
  | .format, v =>
    if g.format.isSome then .error .repeated
    else
      match format? v with
      | none => .error .badValue
      | some f => .ok { g with format := some f }

/-- Takes the value that is pending, if any. -/
def settle (g : Given) : Except UsageFault Given :=
  match g.pending with
  | none => .ok g
  | some (_, none) => .error .badValue
  | some (slot, some v) => { g with pending := none }.put slot v

/-- Whether the next argument is the value of an option, unless it looks like an option. -/
def awaits (g : Given) : Bool :=
  match g.pending with
  | some (_, none) => true
  | _ => false

def setVerbose (g : Given) : Except UsageFault Given := do
  let g ← g.settle
  if g.verbose then .error .repeated else .ok { g with verbose := true }

/-- Refuses to go on with the given fault, or with that of a pending value. -/
def stop (g : Given) (fault : UsageFault) : Except UsageFault Given := do
  let _ ← g.settle
  .error fault

def isEmpty (g : Given) : Bool := !g.verbose && g.root.isNone

end Given

def letter (place : Place) (g : Given) (c : Char) : Except UsageFault Given :=
  if c = 'v' then g.setVerbose
  else if c = 'h' then g.stop .help
  else if c = 'V' ∧ place = .front then g.stop .version
  else .error .unknownArgument

/-- Takes an option that is written with its name, and the value after an equals sign if there is one. -/
def named (place : Place) (g : Given) (name : String) (value : Option String) : Except UsageFault Given :=
  match place.slot? name with
  | some slot => do
    let g ← g.settle
    match value with
    | some v => g.put slot v
    | none => .ok { g with pending := some (slot, none) }
  | none =>
    if name = "verbose" ∨ name = "help" ∨ (name = "version" ∧ place = .front) then
      if value.isSome then .error .extraValue
      else if name = "verbose" then g.setVerbose
      else if name = "help" then g.stop .help
      else g.stop .version
    else .error .unknownArgument

/-- Takes an argument that is no option. Only one command has a place for one. -/
def positional (place : Place) (g : Given) (a : String) : Except UsageFault Given :=
  match place with
  | .front =>
    if g.plain ∧ ((Verb.ofName? a).isSome ∨ a = helpName) then .error .unknownArgument else .error .unknownCommand
  | .behind verb =>
    if verb = .inspect ∧ g.host.isNone then do
      let g ← g.settle
      .ok { g with host := some a }
    else .error .unknownArgument

/-- A name and the text after the first equals sign. -/
def splitValue (cs : List Char) : String × Option String :=
  let name := cs.takeWhile (· ≠ '=')
  match cs.dropWhile (· ≠ '=') with
  | [] => (.ofList name, none)
  | _ :: value => (.ofList name, some (.ofList value))

def take (place : Place) (g : Given) (a : String) : Except UsageFault Given :=
  if g.plain then positional place g a
  else
    match a.toList with
    | ['-', '-'] => .ok { g with plain := true }
    | '-' :: '-' :: cs => let (name, value) := splitValue cs; named place g name value
    | '-' :: c :: cs => (c :: cs).foldlM (letter place) g
    | _ =>
      match g.pending with
      | some (slot, none) => .ok { g with pending := some (slot, some a) }
      | _ => positional place g a

/-- What help about the named commands comes to. -/
def helpAbout : List String → UsageFault
  | [] => .help
  | [name] => if (Verb.ofName? name).isSome ∨ name = helpName then .help else .unknownCommand
  | _ => .unknownCommand

/-- Reads up to the name of a command, and gives the command and what follows. -/
def front (g : Given) : List String → Except UsageFault (Given × Verb × List String)
  | [] => do
    let g ← g.settle
    .error (if g.isEmpty then .nothingAsked else .missingCommand)
  | a :: rest =>
    let named? := if g.plain ∨ g.awaits then none else some a
    match named?.bind Verb.ofName? with
    | some verb => .ok (g, verb, rest)
    | none =>
      if named? = some helpName then .error (helpAbout rest)
      else do
        let g ← take .front g a
        front g rest

/-- Reads what follows the name of a command. -/
def behind (verb : Verb) (args : List String) : Except UsageFault Given := do
  let g ← args.foldlM (take (.behind verb)) {}
  let g ← g.settle
  if verb = .inspect ∧ g.host.isNone then .error .missingHost else .ok g

def Given.command (g : Given) : Verb → Command
  | .list => .list
  | .inspect => .inspect (g.host.getD "") (g.format.getD .deploy)
  | .eval => .eval (g.format.getD .deploy)
  | .check => .check
  | .version => .version

structure Request where
  command : Command
  verbose : Bool := false
  root : Option String := none
  deriving DecidableEq, Repr

/-- Reads a command line. An option of the whole program counts wherever it stands; of two roots the later one does. -/
def parse (args : List String) : Except UsageFault Request := do
  let (before, verb, rest) ← front {} args
  let after ← behind verb rest
  let before ← before.settle
  .ok { command := after.command verb, verbose := before.verbose || after.verbose, root := after.root.or before.root }

end HostFleet.Arguments
