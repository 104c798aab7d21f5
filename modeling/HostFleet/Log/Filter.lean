import HostFleet.Log.Directive

/-!
# Log filters

A filter is a list of directives. Of those about an event the closest one decides; where there is none, the event is not
shown.
-/

namespace HostFleet.Log

/-- A list of directives. Of two that are equally close to an event the later counts. -/
abbrev Filter := List Directive

namespace Filter

def upTo (level : Level) : Filter := [{ target := "", rank := level.rank }]

def pieces (text : String) : List String := (text.splitOn ",").filter (· ≠ "")

/-- The filter that a text of directives writes, or the given one if it holds none. Pieces that are no directive do not
count. -/
def ofText (text : String) (fallback : Filter) : Filter :=
  let directives := (pieces text).filterMap fun piece => (Directive.ofText piece).toOption
  if directives.isEmpty then fallback else directives

/-- What the user is told about the pieces of a text that are no directive, a line for each. -/
def complaints (text : String) : String :=
  String.join ((pieces text).map fun piece =>
    match Directive.ofText piece with
    | .ok _ => ""
    | .error fault => "ignoring `" ++ piece ++ "`: " ++ fault.message ++ "\n")

/-- The directive for a source: of those about it the last one that is closest. -/
def deciding? (filter : Filter) (source : Source) : Option Directive :=
  (filter.filter (·.covers source)).foldl (fun best d =>
    match best with
    | none => some d
    | some b => if b.yields d then some d else some b) none

def shows (filter : Filter) (e : Event) : Bool :=
  match filter.deciding? e.source with
  | none => false
  | some d => e.level.rank ≤ d.rank

def console (filter : Filter) (events : List Event) : String :=
  String.join ((events.filter filter.shows).map Event.line)

end Filter

end HostFleet.Log
