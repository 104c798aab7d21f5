import HostFleet.Fleet.Settings
import HostFleet.Log.Logged
import HostFleet.Package.Override

/-!
# Overlay files

An overlay file names the overlay, or leaves that to its own file name, and lists overrides. Overrides that make no sense
are refused when the file is loaded.
-/

namespace HostFleet

structure OverlayFile where
  name : Option String := none
  packages : NameMap Override := {}

namespace OverlayFile

def shape : Toml.Shape OverlayFile where
  title := "OverlayFile"
  start := {}
  fields :=
    [.of "name" .text (fun a f => { f with name := some a }),
      .of "packages" (.map Override.shape.decode) (fun a f => { f with packages := a })]

/-- The name of the overlay: the one that the file gives, or the stem of its path. -/
def overlayName (f : OverlayFile) (path : Path) : Except Failure String :=
  match f.name.or (path.stem?.bind Utf8.decode?) with
  | some name => .ok name
  | none => .error { cause := .note ("overlay file has no usable name: " ++ path.text) }

/-- Checks every override, in the order of the package names. -/
def check (f : OverlayFile) (path : Path) : Except Failure Unit :=
  f.packages.entries.forM fun (package, o) => o.check.mapError fun misuse =>
    { contexts := ["invalid overlay " ++ path.text], cause := .note (misuse.message package) }

def load (fs : FileSystem) (path : Path) : Logged Failure (Overlay Artifact) := do
  let file ← .of (Document.required shape.ofTable fs path)
  let name ← .of (file.overlayName path)
  .of (file.check path)
  .say ⟨.debug, .overlays, "loaded overlay " ++ name ++ " (" ++ toString file.packages.size ++ " packages)"⟩
  return Override.overlay name file.packages

def loadAll (fs : FileSystem) (root : Path) (paths : List Path) : Logged Failure (List (Overlay Artifact)) :=
  paths.mapM fun p => load fs (root.join p)

end OverlayFile

end HostFleet
