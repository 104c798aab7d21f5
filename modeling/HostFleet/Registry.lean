import HostFleet.FileSystem.Basic
import HostFleet.NameMap
import HostFleet.Platform

/-!
# Registries of hosts

All hosts of a fleet by name, and the groups they belong to. A name belongs to one host only. A host imports the modules that
all hosts share and then its own. A module that is named again is imported again, so repeats are kept here and can be
reported.
-/

namespace HostFleet

/-- The name of a module: a path under the root of the fleet, or any other name. -/
abbrev ModuleRef := String

namespace Composition

def compose (shared own : List ModuleRef) : List ModuleRef := shared ++ own

/-- The occurrences of modules that are among those seen or occurred before. -/
def repeatedFrom (seen : List ModuleRef) : List ModuleRef → List ModuleRef
  | [] => []
  | m :: rest => if m ∈ seen then m :: repeatedFrom seen rest else repeatedFrom (m :: seen) rest

/-- Every occurrence of a module after its first one, in order. -/
def repeated (modules : List ModuleRef) : List ModuleRef := repeatedFrom [] modules

end Composition

structure Host where
  name : String
  group : String
  modules : List ModuleRef := []
  /-- The platform of the host, if it is not the default one. -/
  platform : Option Platform := none
  /-- The file that defines the host; empty for a host without one. -/
  file : Path := ⟨[]⟩
  deriving DecidableEq, Repr

inductive RegistryFault where
  | duplicate (host first second : String)
  | unreadable (path : Path) (fault : IoFault)
  /-- A host file does not say what it should. -/
  | invalidFile (path : Path) (reason : String)
  | invalidName (path : Path)
  deriving DecidableEq, Repr

namespace RegistryFault

def message : RegistryFault → String
  | .duplicate host first second =>
    "Duplicate host '" ++ host ++ "': declared in group '" ++ first ++ "' and again in group '" ++ second ++ "'"
  | .unreadable path fault => "IO error reading " ++ path.text ++ ": " ++ fault.message
  | .invalidFile path reason => "Invalid host file " ++ path.text ++ ": " ++ reason
  | .invalidName path => "Invalid host or group name: " ++ path.text

def chain (f : RegistryFault) : List String :=
  f.message :: match f with
    | .unreadable _ fault => [fault.message]
    | _ => []

end RegistryFault

/-- The hosts of a fleet by name, and the names of the hosts of each group in the order in which they came. Every host is
stored under its own name. -/
structure Registry where
  hosts : NameMap Host
  groups : NameMap (List String)
  named : ∀ {name host}, hosts.get? name = some host → host.name = name

namespace Registry

def empty : Registry where
  hosts := {}
  groups := {}
  named h := by cases h

instance : EmptyCollection Registry := ⟨empty⟩

/-- Adds a group, which may stay without hosts. -/
def addGroup (r : Registry) (group : String) : Registry :=
  { r with groups := r.groups.insert group ((r.groups.get? group).getD []) }

theorem named_insert (r : Registry) {host stored : Host} {name : String}
    (h : (r.hosts.insert host.name host).get? name = some stored) : stored.name = name := by
  rw [NameMap.get?_insert] at h
  split at h
  · rename_i hname
    obtain rfl := Option.some.inj h
    exact hname.symm
  · exact r.named h

/-- Adds a host to its group, unless its name is taken. -/
def add (r : Registry) (host : Host) : Except RegistryFault Registry :=
  match r.hosts.get? host.name with
  | some other => .error (.duplicate host.name other.group host.group)
  | none =>
    .ok {
      hosts := r.hosts.insert host.name host
      groups := r.groups.insert host.group ((r.groups.get? host.group).getD [] ++ [host.name])
      named := r.named_insert }

def ofHosts (hosts : List Host) : Except RegistryFault Registry := hosts.foldlM add {}

def get? (r : Registry) (name : String) : Option Host := r.hosts.get? name

def toList (r : Registry) : List Host := r.hosts.values

def size (r : Registry) : Nat := r.hosts.size

/-- The hosts that have a platform of their own, with it. -/
def exceptions (r : Registry) : NameMap Platform :=
  .ofList (r.toList.filterMap fun h => h.platform.map (h.name, ·))

end Registry

end HostFleet
