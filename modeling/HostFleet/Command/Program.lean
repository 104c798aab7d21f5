import HostFleet.Command.Arguments
import HostFleet.Log.Filter

/-!
# The program

The whole program as a function from what it is started with to what it leaves behind.
-/

namespace HostFleet.Program

structure Start where
  args : List String
  surroundings : Surroundings
  filter : Option String := none

structure Finish where
  code : Nat
  output : String := ""
  errors : String := ""
  deriving DecidableEq, Repr

def helpText : String :=
  "Resolve fleet definitions into per-host deployable configurations\n\n"
    ++ "Usage: fleet [OPTIONS] <COMMAND>\n\n"
    ++ "Commands:\n"
    ++ "  list     List every host with its group, architecture and target address\n"
    ++ "  show     Print the resolved configuration of one host as JSON\n"
    ++ "  eval     Print the resolved configuration of every host as JSON\n"
    ++ "  check    Resolve every host and report problems\n"
    ++ "  version  Print version information\n"
    ++ "  help     Print this message or the help of the given subcommand(s)\n\n"
    ++ "Options:\n"
    ++ "  -v, --verbose      Enable verbose output\n"
    ++ "      --root <ROOT>  Fleet root directory (defaults to $FLEET_ROOT, then the current directory)\n"
    ++ "  -h, --help         Print help\n"
    ++ "  -V, --version      Print version\n"

/-- What is left behind when the arguments cannot be carried out. -/
def refuse : Arguments.UsageFault → Finish
  | .version => { code := 0, output := Command.versionLine }
  | .help => { code := 0, output := helpText }
  | _ => { code := 2, errors := helpText }

/-- What the console shows: what the filter lets through. -/
def filter (start : Start) (verbose : Bool) : Log.Filter :=
  .ofText (start.filter.getD "") (.upTo (if verbose then .debug else .info))

/-- Carries a request out. What is wrong with the log filter is told first. -/
def answer (start : Start) (request : Arguments.Request) : Finish :=
  let t := request.command.run start.surroundings (request.root.map Path.ofText)
  let log := Log.Filter.complaints (start.filter.getD "") ++ (filter start request.verbose).console t.events
  match t.outcome with
  | .ok () => { code := 0, output := t.text, errors := log }
  | .error failure => { code := 1, output := t.text, errors := log ++ failure.report }

def run (start : Start) : Finish :=
  match Arguments.parse start.args with
  | .error fault => refuse fault
  | .ok request => answer start request

end HostFleet.Program
