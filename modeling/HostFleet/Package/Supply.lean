import HostFleet.Overlay.Solver
import HostFleet.Package.Set

/-!
# Where packages come from

A source gives the packages of a platform before any overlay. A `Supply` is a source with a chain of overlays over it,
and `Supply.build` gives the package set of a platform, or says why there is none.
-/

namespace HostFleet

/-- Why a platform has no package set. -/
inductive BuildFault where
  /-- A package of the source cannot be built. -/
  | unbuildable (platform : Platform) (package reason : String)
  /-- The overlays have no solution. -/
  | overlay (platform : Platform) (fault : Overlay.Fault)
  deriving DecidableEq, Repr

namespace BuildFault

def message : BuildFault → String
  | .unbuildable platform package reason =>
    "Package set for " ++ platform.name ++ " failed to build '" ++ package ++ "': " ++ reason
  | .overlay platform fault => "Overlay evaluation for " ++ platform.name ++ " failed: " ++ fault.message

def chain (f : BuildFault) : List String :=
  f.message :: match f with
    | .unbuildable _ _ _ => []
    | .overlay _ fault => [fault.message]

end BuildFault

/-- The packages of a platform before any overlay. -/
abbrev PackageSource := Platform → Except BuildFault (NameMap Artifact)

/-- A source of packages and the overlays over it. -/
structure Supply where
  source : PackageSource
  overlays : List (Overlay Artifact)

/-- The package set of a platform: the source's packages with the overlays applied. -/
def Supply.build (supply : Supply) (platform : Platform) : Except BuildFault PackageSet := do
  let base ← supply.source platform
  let packages ← (Overlay.apply supply.overlays platform base).mapError (.overlay platform)
  .ok ⟨platform, packages⟩

end HostFleet
