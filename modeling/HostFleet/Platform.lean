import HostFleet.NameMap

/-!
# Platforms

Hosts, packages and overlays are resolved for one platform at a time. A platform is only a name, such as
`x86_64-linux`; nothing in the project looks inside it. Every host runs on the default platform unless it has one of its own.
A fleet may list the platforms it knows; then the default and every host's own platform must be among them.
-/

namespace HostFleet

/-- A platform that hosts run on and packages are built for. -/
structure Platform where
  name : String
  deriving DecidableEq, Repr, Inhabited

instance : ToString Platform := ⟨Platform.name⟩

/-- The platform of every host: a default, and the exceptions by host name. -/
structure Assignment where
  default : Platform
  exceptions : NameMap Platform

structure PlatformFault where
  /-- The host that runs on it, or a word for the default. -/
  host : String
  platform : Platform
  known : List Platform
  deriving DecidableEq, Repr

def PlatformFault.message (f : PlatformFault) : String :=
  "Host '" ++ f.host ++ "' references unknown system '" ++ f.platform.name ++ "' (known: "
    ++ ", ".intercalate (f.known.map Platform.name) ++ ")"

namespace Assignment

def platformOf (a : Assignment) (host : String) : Platform := (a.exceptions.get? host).getD a.default

/-- What the default is called where a host is expected. -/
def defaultHost : String := "<default>"

/-- Checks that every platform is known, the default first and then the exceptions by host name. Without a list of known
platforms all are accepted. -/
def check (a : Assignment) (known : List Platform) : Except PlatformFault Unit :=
  if known = [] then .ok ()
  else
    match ((defaultHost, a.default) :: a.exceptions.entries).find? (fun e => e.2 ∉ known) with
    | none => .ok ()
    | some (host, platform) => .error ⟨host, platform, known⟩

end Assignment

end HostFleet
