import HostFleet.Log.Event
import HostFleet.Package.Supply
import HostFleet.Text.Quoted

/-!
# Runs

A run remembers the package sets it has built, so that each platform is built at most once, failures included, and keeps
what was said on the way.
-/

namespace HostFleet

abbrev Built := Except BuildFault PackageSet

/-- What a run knows: what came of each platform it has built, how many builds there were, and what was said. -/
structure Run where
  answers : NameMap Built := {}
  builds : Nat := 0
  events : List Log.Event := []

namespace Run

def say (event : Log.Event) : StateM Run Unit := modify fun run => { run with events := run.events ++ [event] }

def note (level : Log.Level) (message : String) : StateM Run Unit := say ⟨level, .cache, message⟩

def building (platform : Platform) : Log.Event := ⟨.debug, .cache, "building package set for " ++ platform.name⟩

def cached (run : Run) (platform : Platform) : Option Built := run.answers.get? platform.name

def remember (platform : Platform) (built : Built) : StateM Run Unit :=
  modify fun run => { run with answers := run.answers.insert platform.name built, builds := run.builds + 1 }

/-- A platform is remembered as it was built, and no other platform is affected. -/
theorem cached_remember (run : Run) (platform other : Platform) (built : Built) :
    ((remember platform built).run run).2.cached other = if other = platform then some built else run.cached other := by
  obtain ⟨p⟩ := platform
  obtain ⟨o⟩ := other
  change (run.answers.insert p built).get? o = _
  rw [NameMap.get?_insert]
  simp [cached]

end Run

namespace Supply

def buildNew (supply : Supply) (platform : Platform) : StateM Run Built := do
  let built := supply.build platform
  Run.remember platform built
  Run.say (Run.building platform)
  match built with
  | .ok set => Run.note .debug ("package set for " ++ platform.name ++ ": " ++ toString set.size ++ " packages")
  | .error fault => Run.note .warn ("package set for " ++ platform.name ++ " failed: " ++ fault.message)
  return built

/-- The package set of a platform, built if it was not built before. -/
def get (supply : Supply) (platform : Platform) : StateM Run Built := do
  match (← MonadState.get).cached platform with
  | some built =>
    Run.note .debug ("package set for " ++ platform.name ++ ": cache hit")
    return built
  | none => supply.buildNew platform

/-- The package sets of several platforms, one after another in the order given. Where they are built side by side, this is
one of the orders in which they may come. -/
def warm (supply : Supply) (platforms : List Platform) : StateM Run (List (Platform × Built)) :=
  platforms.mapM fun p => do return (p, ← supply.get p)

/-- The store of package sets in one line. -/
def describe (supply : Supply) (run : Run) : String :=
  "PackageSetCache \x7b source: \"<dyn PackageSource>\", chain: " ++ Text.quotedList (supply.overlays.map (·.name))
    ++ ", builds: " ++ toString run.builds ++ ", .. \x7d"

end Supply

end HostFleet
