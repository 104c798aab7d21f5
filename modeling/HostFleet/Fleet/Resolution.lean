import HostFleet.Fleet.Fault
import HostFleet.Fleet.Run
import HostFleet.Fleet.Settings

/-!
# Resolving hosts

A fleet is its settings, its hosts and its supply of packages. Resolving a host gives its configuration: where it runs,
what it imports, how it is deployed, and the package set of its platform.
-/

namespace HostFleet

structure Deployment where
  tags : List String
  targetHost : String
  targetUser : String
  allowLocalDeployment : Bool
  deriving DecidableEq, Repr

structure Configuration where
  host : String
  group : String
  platform : Platform
  modules : List ModuleRef
  deployment : Deployment
  packages : PackageSet
  specialArgs : NameMap Json

/-- A fleet: its settings, its hosts and its supply of packages. Whether its platforms are known is checked by `Fleet.new`. -/
structure Fleet where
  settings : Settings
  registry : Registry
  supply : Supply

namespace Fleet

/-- Which host of some hosts runs on which platform. -/
def assignment (settings : Settings) (registry : Registry) : Assignment :=
  ⟨settings.defaultPlatform, registry.exceptions⟩

/-- The fleet, unless a platform is not known. -/
def new (settings : Settings) (registry : Registry) (source : PackageSource) (overlays : List (Overlay Artifact)) :
    Except PlatformFault Fleet := do
  (assignment settings registry).check settings.platforms
  .ok ⟨settings, registry, ⟨source, overlays⟩⟩

def platformOf (fleet : Fleet) (host : String) : Platform :=
  (assignment fleet.settings fleet.registry).platformOf host

def configure (fleet : Fleet) (host : Host) (packages : PackageSet) : Configuration where
  host := host.name
  group := host.group
  platform := fleet.platformOf host.name
  modules := Composition.compose fleet.settings.commonModules host.modules
  deployment := {
    tags := [host.group]
    targetHost := fleet.settings.targetHost host.name
    targetUser := fleet.settings.targetUser
    allowLocalDeployment := fleet.settings.allowLocalDeployment }
  packages := packages
  specialArgs := fleet.settings.specialArgs

/-- The configuration of a host, or why there is none, and what is said about it. -/
def resolve (fleet : Fleet) (host : Host) : StateM Run (Except FleetFault Configuration) := do
  match ← fleet.supply.get (fleet.platformOf host.name) with
  | .error fault => return .error (.build fault)
  | .ok packages =>
    let c := fleet.configure host packages
    Run.say ⟨.debug, .resolution, "resolved " ++ c.host ++ " on " ++ c.platform.name ++ ": "
      ++ toString c.modules.length ++ " modules, " ++ toString packages.size ++ " packages"⟩
    return .ok c

def resolveHost (fleet : Fleet) (name : String) : StateM Run (Except FleetFault Configuration) :=
  match fleet.registry.get? name with
  | none => return .error (.unknownHost name)
  | some host => fleet.resolve host

def platforms (fleet : Fleet) : List Platform :=
  (NameMap.ofList (fleet.registry.toList.map fun h => ((fleet.platformOf h.name).name, ()))).names.map Platform.mk

/-- The configuration of every host, in the order of their names. All package sets are built first. -/
def resolveAll (fleet : Fleet) : StateM Run (List (String × Except FleetFault Configuration)) := do
  Run.say ⟨.debug, .resolution, "building package sets for " ++ toString fleet.platforms.length ++ " system(s)"⟩
  let _ ← fleet.supply.warm fleet.platforms
  fleet.registry.toList.mapM fun host => do return (host.name, ← fleet.resolve host)

end Fleet

end HostFleet
