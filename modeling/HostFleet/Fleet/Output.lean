import HostFleet.Fleet.Resolution

/-!
# What is written about hosts

A configuration is written as one of two documents: a node for a tool that deploys many hosts, or a system for a tool
that builds one.
-/

namespace HostFleet

/-- Which document is written about a host. -/
inductive Format where
  | deploy
  | system
  deriving DecidableEq, Repr

def Deployment.toJson (d : Deployment) : Json :=
  .ofFields
    [("tags", .texts d.tags), ("targetHost", .text d.targetHost), ("targetUser", .text d.targetUser),
      ("allowLocalDeployment", .bool d.allowLocalDeployment)]

def Configuration.render (c : Configuration) : Format → Json
  | .deploy => .ofFields [("imports", .texts c.modules), ("deployment", c.deployment.toJson)]
  | .system =>
    .ofFields
      [("system", .text c.platform.name), ("modules", .texts c.modules), ("specialArgs", .object c.specialArgs)]

namespace Fleet

/-- A host in a line: its name, its group, its platform and its address. -/
def hostLine (fleet : Fleet) (host : Host) : String :=
  host.name ++ " " ++ host.group ++ " " ++ (fleet.platformOf host.name).name ++ " "
    ++ fleet.settings.targetHost host.name ++ "\n"

/-- Every host in a line, in the order of their names. No package set is built. -/
def hostLines (fleet : Fleet) : List String := fleet.registry.toList.map fleet.hostLine

/-- Says of a fault which host was being resolved. -/
def orFailure (host : String) (result : Except FleetFault Configuration) : Except Failure Configuration :=
  result.mapError fun fault => { contexts := ["resolving host " ++ host], cause := .fleet fault }

def documentOf (fleet : Fleet) (host : String) (format : Format) : StateM Run (Except Failure Json) := do
  let result ← fleet.resolveHost host
  return (orFailure host result).map (·.render format)

/-- The document of what hosts resolved to, by name. The first host without a configuration is the failure. -/
def assemble (format : Format) (results : List (String × Except FleetFault Configuration)) : Except Failure Json := do
  let members ← results.mapM fun (host, result) => do .ok (host, (← orFailure host result).render format)
  .ok (.ofFields members)

def document (fleet : Fleet) (format : Format) : StateM Run (Except Failure Json) := do
  return assemble format (← fleet.resolveAll)

end Fleet

end HostFleet
