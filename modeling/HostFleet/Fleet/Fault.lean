import HostFleet.Package.Supply
import HostFleet.Platform
import HostFleet.Registry
import HostFleet.Toml.Decode

/-!
# Faults and failures

A `FleetFault` says why a fleet or one of its hosts cannot be resolved. A `Failure` is what a user is told: a cause, with
what was being done at the time around it.
-/

namespace HostFleet

/-- Why a fleet or one of its hosts cannot be resolved. -/
inductive FleetFault where
  | registry (fault : RegistryFault)
  | platform (fault : PlatformFault)
  | build (fault : BuildFault)
  | unknownHost (host : String)

namespace FleetFault

def message : FleetFault → String
  | .registry fault => "Host registry error: " ++ fault.message
  | .platform fault => "Architecture resolution error: " ++ fault.message
  | .build fault => "Package set build error: " ++ fault.message
  | .unknownHost host => "Unknown host '" ++ host ++ "'"

def chain (f : FleetFault) : List String :=
  f.message :: match f with
    | .registry fault => fault.chain
    | .platform fault => [fault.message]
    | .build fault => fault.chain
    | .unknownHost _ => []

end FleetFault

/-- Where a failure started. -/
inductive Cause where
  | note (text : String)
  | io (fault : IoFault)
  | toml (fault : Toml.Fault)
  | registry (fault : RegistryFault)
  | platform (fault : PlatformFault)
  | fleet (fault : FleetFault)
  /-- A document could not be written in full. -/
  | document (fault : IoFault)

def Cause.chain : Cause → List String
  | .note text => [text]
  | .io fault => [fault.message]
  | .toml fault => [fault.message]
  | .registry fault => fault.chain
  | .platform fault => [fault.message]
  | .fleet fault => fault.chain
  | .document fault => [fault.message]

/-- A cause, and what was being done, the outermost first. -/
structure Failure where
  contexts : List String := []
  cause : Cause

namespace Failure

/-- The failure with more said about what was being done. -/
def within (f : Failure) (context : String) : Failure := { f with contexts := context :: f.contexts }

def chain (f : Failure) : List String := f.contexts ++ f.cause.chain

def message (f : Failure) : String := ": ".intercalate f.chain

/-- A text with its further lines indented. -/
def indented (margin text : String) : String := ("\n" ++ margin).intercalate (text.splitOn "\n")

/-- A cause in a numbered list. -/
def numbered (cause : String) (number : Nat) : String :=
  let digits := toString number
  "\n" ++ String.ofList (List.replicate (5 - digits.length) ' ') ++ digits ++ ": " ++ indented "       " cause

/-- The failure as it is reported to the user: the outermost text, and the others as a list of causes, numbered if there
are several. -/
def report (f : Failure) : String :=
  match f.chain with
  | [] => "Error: \n"
  | text :: causes =>
    let list := match causes with
      | [] => ""
      | [cause] => "\n\nCaused by:\n    " ++ indented "    " cause
      | causes => "\n\nCaused by:" ++ String.join (causes.zipIdx.map fun (cause, i) => numbered cause i)
    "Error: " ++ text ++ list ++ "\n"

end Failure

end HostFleet
