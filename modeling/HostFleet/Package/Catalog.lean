import HostFleet.Package.Supply
import HostFleet.Toml.Decode

/-!
# Catalogs

A catalog lists the packages that overlays start from. An entry may be limited to some platforms, and may be marked as
broken: then no package set can be built on the platforms it is available on.
-/

namespace HostFleet

structure CatalogEntry where
  version : String
  /-- The platforms the package is limited to; none means no limit. -/
  platforms : List Platform := []
  inputs : List String := []
  attrs : NameMap String := {}
  broken : Bool := false

namespace CatalogEntry

def availableOn (e : CatalogEntry) (platform : Platform) : Bool := e.platforms.isEmpty || e.platforms.contains platform

def artifact (e : CatalogEntry) (name : String) (platform : Platform) : Artifact where
  pname := name
  version := e.version
  platform := platform
  inputs := e.inputs
  attrs := e.attrs

def shape : Toml.Shape CatalogEntry where
  title := "CatalogEntry"
  start := { version := "" }
  fields :=
    [{ Toml.Field.of "version" .text (fun a e => { e with version := a }) with needed := true },
      .of "systems" (.list .text) (fun a e => { e with platforms := a.map Platform.mk }),
      .of "inputs" (.list .text) (fun a e => { e with inputs := a }),
      .of "attrs" (.map .text) (fun a e => { e with attrs := a }),
      .of "broken" .boolean (fun a e => { e with broken := a })]

end CatalogEntry

/-- The packages that overlays start from. -/
structure Catalog where
  packages : NameMap CatalogEntry := {}

namespace Catalog

def brokenReason : String := "build step failed (marked broken)"

/-- The packages of a catalog on a platform. The first broken one by name is reported. -/
def source (c : Catalog) : PackageSource := fun platform =>
  let available := c.packages.filter fun _ e => e.availableOn platform
  match available.entries.find? (fun e => e.2.broken) with
  | some (name, _) => .error (.unbuildable platform name brokenReason)
  | none => .ok (available.mapWithName fun name e => e.artifact name platform)

def shape : Toml.Shape Catalog where
  title := "Catalog"
  start := {}
  fields := [.of "packages" (.map CatalogEntry.shape.decode) (fun a _ => ⟨a⟩)]

end Catalog

end HostFleet
