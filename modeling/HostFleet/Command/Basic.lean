import HostFleet.Fleet.Output
import HostFleet.Fleet.Report
import HostFleet.Fleet.Validation

/-!
# Commands

What a user can ask for, and what comes of it: what is said, what is reported about hosts, what is written, and whether
it went well.
-/

namespace HostFleet

/-- What a user asks for. -/
inductive Command where
  | list
  | inspect (host : String) (format : Format)
  | eval (format : Format)
  | check
  | version
  deriving DecidableEq, Repr

/-- What a command finds around it. -/
structure Surroundings where
  files : FileSystem
  here : Path
  /-- The root that the environment names, empty for none. -/
  preset : Option Path := none

/-- A piece of output. If it cannot be written, the failure tells documents from other output. -/
structure Chunk where
  text : String
  isDocument : Bool := false

/-- What comes of a command. Output is written last, when all else is done. -/
structure Transcript where
  events : List Log.Event := []
  report : Report := []
  output : List Chunk := []
  outcome : Except Failure Unit := .ok ()

namespace Transcript

def text (t : Transcript) : String := String.join (t.output.map Chunk.text)

/-- The octets that fit into so much space, and the failure to write the chunk that does not fit. -/
def fill : (space : Nat) → List Chunk → List UInt8 × Except Failure Unit
  | _, [] => ([], .ok ())
  | space, chunk :: rest =>
    let octets := Utf8.encode chunk.text
    if octets.length ≤ space then
      let (written, outcome) := fill (space - octets.length) rest
      (octets ++ written, outcome)
    else
      (octets.take space, .error { cause := if chunk.isDocument then .document .noSpace else .io .noSpace })

/-- What comes of a command whose output has only so much space: the octets that were written, and the outcome. -/
def within (t : Transcript) (space : Nat) : List UInt8 × Except Failure Unit :=
  let (written, filled) := fill space t.output
  (written, do filled; t.outcome)

end Transcript

/-- The root of the fleet: the one that is asked for, else the one of the environment, else the working directory if it
holds settings. -/
def Surroundings.root (s : Surroundings) (asked : Option Path) : Except Failure Path :=
  match asked with
  | some root => .ok root
  | none =>
    match s.preset.filter (fun p => p.octets ≠ []) with
    | some root => .ok root
    | none =>
      if s.files.has (s.here.join Settings.fileName) then .ok s.here
      else .error { cause := .note "cannot determine fleet root. Use --root or set FLEET_ROOT" }

/-- A fleet that is ready, with the warnings about its definition. -/
structure Setup where
  warnings : List Warning
  fleet : Fleet

namespace Setup

def overview (d : Definition) : List Log.Event :=
  [.debug (toString d.registry.size ++ " hosts"),
    .debug (toString d.registry.groups.size ++ " groups"),
    .debug (toString d.catalog.packages.size ++ " catalog packages"),
    .debug (toString d.overlays.length ++ " overlays"),
    .info ("loaded " ++ toString d.registry.size ++ " hosts in " ++ toString d.registry.groups.size ++ " groups")]

def warningEvents (warnings : List Warning) : List Log.Event :=
  if warnings.isEmpty then []
  else
    .warn ("found " ++ toString warnings.length ++ " configuration warning(s):")
      :: warnings.map fun w => .warn ("  " ++ w.place ++ " [" ++ w.item ++ "]: " ++ w.message)

/-- Finds the root, loads the definition under it and makes the fleet ready. -/
def load (s : Surroundings) (asked : Option Path) : Logged Failure Setup := do
  let root ← .of (s.root asked)
  .say (.debug ("fleet root: " ++ root.text))
  .say (.stage "Loading fleet")
  let definition ← Definition.load s.files root
  (overview definition).forM .say
  (definition.checkEvents s.files).forM .say
  let warnings := definition.warnings s.files
  (warningEvents warnings).forM .say
  let fleet ← .of (definition.fleet.mapError fun fault => { cause := .platform fault })
  return { warnings, fleet }

end Setup

namespace Command

def versionNumber : String := "0.1.0"

def versionLine : String := "fleet " ++ versionNumber ++ "\n"

def versionTranscript : Transcript := { output := [{ text := versionLine }] }

def written (document : Json) : List Chunk := [⟨document.pretty, true⟩, ⟨"\n", false⟩]

def documented (result : Except Failure Json) (run : Run) : Transcript :=
  match result with
  | .ok document => { events := run.events, output := written document }
  | .error failure => { events := run.events, outcome := .error failure }

def perform (fleet : Fleet) : Command → Transcript
  | .list => { output := fleet.hostLines.map ({ text := · }) }
  | .inspect host format =>
    let (result, run) := (fleet.documentOf host format).run { events := [.stage ("Resolving " ++ host)] }
    documented result run
  | .eval format =>
    let (result, run) := (fleet.document format).run { events := [.stage "Resolving hosts"] }
    documented result run
  | .check =>
    let (report, run) := fleet.report.run {}
    { events := run.events, report, outcome := Fleet.verdict report }
  | .version => versionTranscript

/-- Carries a command out. Only the version needs no fleet. -/
def run (s : Surroundings) (asked : Option Path) (command : Command) : Transcript :=
  match command with
  | .version => versionTranscript
  | command =>
    let setup := Setup.load s asked
    match setup.outcome with
    | .error failure => { events := setup.events, outcome := .error failure }
    | .ok ready =>
      let t := perform ready.fleet command
      { t with events := setup.events ++ t.events }

end Command

/-! ### Which files a command looks at

The paths that loading a fleet asks about, as far as they can be told from what is known about the files. Each answer may
lead to further questions: settings name other files, and directories hold them.
-/

/-- The paths that loading and checking the definition under a root asks about. -/
def Definition.paths (fs : FileSystem) (root : Path) : List Path :=
  let settingsFile := root.join Settings.fileName
  let settings := (Document.optional Settings.shape.ofTable fs settingsFile).toOption.getD {}
  let hostsDir := root.join settings.hostsDir
  let groups := (fs.list hostsDir).toOption.getD []
  let entries := groups.flatMap fun g => (fs.list g).toOption.getD []
  let modules : List ModuleRef := match (Registry.discover fs root hostsDir).outcome with
    | .error _ => []
    | .ok registry => settings.commonModules ++ registry.toList.flatMap Host.modules
  settingsFile :: hostsDir :: groups ++ entries ++ root.join settings.catalog
    :: settings.overlays.map (root.join ·) ++ modules.map fun m => root.join (.ofText m)

def Surroundings.paths (s : Surroundings) (asked : Option Path) : List Path :=
  s.here.join Settings.fileName ::
    match s.root asked with
    | .error _ => []
    | .ok root => Definition.paths s.files root

end HostFleet
