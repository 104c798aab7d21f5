/-!
# Log events

What the program says while it works. An event has a level, the part of the program it comes from, and a message; the
console shows it as one line, coloured by its level.
-/

namespace HostFleet.Log

/-- How much an event matters. -/
inductive Level where
  | error
  | warn
  | info
  | debug
  | trace
  deriving DecidableEq, Repr

/-- Levels from the most to the least important. -/
def Level.rank : Level → Nat
  | .error => 1
  | .warn => 2
  | .info => 3
  | .debug => 4
  | .trace => 5

/-- The part of the program that an event comes from. -/
inductive Source where
  | stage
  | console
  | cache
  | discovery
  | resolution
  | overlays
  | validation
  deriving DecidableEq, Repr

/-- The path by which log filters select a part of the program. -/
def Source.path : Source → String
  | .stage => "fleet::stage"
  | .console => "fleet_resolver::logging::logger"
  | .cache => "fleet::cache"
  | .discovery => "fleet_resolver::fleet::hosts"
  | .resolution => "fleet_resolver::fleet::builder"
  | .overlays => "fleet_resolver::config::overlays"
  | .validation => "fleet_resolver::config::validation"

/-- Something the program says. -/
structure Event where
  level : Level
  source : Source
  message : String
  deriving DecidableEq, Repr

namespace Event

def error (message : String) : Event := ⟨.error, .console, message⟩

def warn (message : String) : Event := ⟨.warn, .console, message⟩

def info (message : String) : Event := ⟨.info, .console, message⟩

def debug (message : String) : Event := ⟨.debug, .console, message⟩

def stage (message : String) : Event := ⟨.info, .stage, message⟩

def line (e : Event) : String :=
  match e.level with
  | .error => "\x1b[31mERROR\x1b[0m " ++ e.message ++ "\n"
  | .warn => "\x1b[33mWARN\x1b[0m  " ++ e.message ++ "\n"
  | .info =>
    if e.source = .stage then "\x1b[1;34m==>\x1b[0m \x1b[1m" ++ e.message ++ "\x1b[0m\n"
    else "  " ++ e.message ++ "\n"
  | .debug => "  \x1b[2m" ++ e.message ++ "\x1b[0m\n"
  | .trace => "  \x1b[2m" ++ e.message ++ "\x1b[0m\n"

end Event

end HostFleet.Log
