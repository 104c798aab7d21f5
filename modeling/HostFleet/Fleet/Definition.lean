import HostFleet.Fleet.Resolution
import HostFleet.Package.Catalog
import HostFleet.Package.OverlayFile
import HostFleet.Registry.Discovery

/-!
# Loading a fleet

A fleet is defined by the files under its root: settings, a catalog of packages, overlays, and a directory of hosts.
-/

namespace HostFleet

/-- A fleet as its files define it. -/
structure Definition where
  root : Path
  settings : Settings
  registry : Registry
  catalog : Catalog
  overlays : List (Overlay Artifact)

namespace Definition

def load (fs : FileSystem) (root : Path) : Logged Failure Definition := do
  let settings ← .of <| (Document.optional Settings.shape.ofTable fs (root.join Settings.fileName)).mapError
    (·.within ("loading " ++ Settings.fileName))
  let hostsDir := root.join settings.hostsDir
  let registry ← (Registry.discover fs root hostsDir).mapFailure fun fault =>
    { contexts := ["discovering hosts in " ++ hostsDir.text], cause := .registry fault }
  let catalog ← .of <| (Document.optional Catalog.shape.ofTable fs (root.join settings.catalog)).mapError
    (·.within ("loading " ++ settings.catalog.text))
  let overlays ← (OverlayFile.loadAll fs root settings.overlays).mapFailure (·.within "loading overlays")
  return { root, settings, registry, catalog, overlays }

def fleet (d : Definition) : Except PlatformFault Fleet :=
  Fleet.new d.settings d.registry d.catalog.source d.overlays

end Definition

end HostFleet
