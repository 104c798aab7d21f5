import HostFleet.Log.Logged
import HostFleet.Registry
import HostFleet.Toml.Decode

/-!
# Discovery of hosts

Hosts are found in a directory of groups. Each directory in it is a group, and each file in a group defines a host with
the name of the file. A TOML file says what the host is; any other file is itself the one module of its host. Names that
start with a dot are passed over.
-/

namespace HostFleet.Registry

structure HostFile where
  modules : List ModuleRef := []
  platform : Option Platform := none

def HostFile.shape : Toml.Shape HostFile where
  title := "HostFile"
  start := {}
  fields :=
    [.of "modules" (.list .text) (fun a f => { f with modules := a }),
      .of "system" .text (fun a f => { f with platform := some ⟨a⟩ })]

/-- What reads host files: from the text of one, what it says or why it says nothing. -/
abbrev HostFile.Parser := String → Except String HostFile

def HostFile.parse : Parser := fun text => (Toml.decodeText shape.ofTable text).mapError Toml.Fault.message

/-- The name at the end of a path, unless it is hidden; a name that is not text is a fault. -/
def visibleName (path : Path) : Except RegistryFault (Option String) :=
  match path.fileName?.bind Utf8.decode? with
  | none => .error (.invalidName path)
  | some name => .ok (if name.startsWith "." then none else some name)

def listing (fs : FileSystem) (path : Path) : Except RegistryFault (List Path) :=
  (fs.list path).mapError (.unreadable path)

/-- Whether a file says in TOML what its host is. -/
def isDescription (path : Path) : Bool := path.extension? = some (Utf8.encode "toml")

def describe (parse : HostFile.Parser) (fs : FileSystem) (path : Path) : Except RegistryFault HostFile := do
  let text ← (fs.read path).mapError (.unreadable path)
  (parse text).mapError (.invalidFile path)

def loadHost (parse : HostFile.Parser) (fs : FileSystem) (root : Path) (group : String) (path : Path) :
    Except RegistryFault Host :=
  match path.stem?.bind Utf8.decode? with
  | none => .error (.invalidName path)
  | some name => do
    let file ←
      if isDescription path then describe parse fs path
      else .ok { modules := [path.reference root] }
    .ok { name, group, modules := file.modules, platform := file.platform, file := path }

/-- Adds what one entry of a group defines. -/
def visitEntry (parse : HostFile.Parser) (fs : FileSystem) (root : Path) (group : String) (r : Registry) (path : Path) :
    Logged RegistryFault Registry := do
  match ← .of (visibleName path) with
  | none => return r
  | some _ =>
    if fs.isDir path then return r
    let host ← .of (loadHost parse fs root group path)
    .say ⟨.debug, .discovery, "discovered host " ++ host.name ++ " in group " ++ group⟩
    .of (r.add host)

/-- Adds what one entry of the directory of groups defines. -/
def visitGroup (parse : HostFile.Parser) (fs : FileSystem) (root : Path) (r : Registry) (path : Path) :
    Logged RegistryFault Registry := do
  match ← .of (visibleName path) with
  | none => return r
  | some group =>
    if fs.isDir path then
      let entries ← .of (listing fs path)
      entries.foldlM (visitEntry parse fs root group) (r.addGroup group)
    else
      .say ⟨.debug, .discovery, "ignoring " ++ path.text ++ ": not a group directory"⟩
      return r

/-- Finds all hosts in a directory of groups. The modules of hosts are named from the root of the fleet. -/
def discover (fs : FileSystem) (root hostsDir : Path) (parse : HostFile.Parser := HostFile.parse) :
    Logged RegistryFault Registry := do
  let entries ← .of (listing fs hostsDir)
  entries.foldlM (visitGroup parse fs root) {}

end HostFleet.Registry
