import HostFleet.Package.Artifact

/-!
# Package sets

All packages of one platform, by name.
-/

namespace HostFleet

/-- The packages of a platform. -/
structure PackageSet where
  platform : Platform
  packages : NameMap Artifact

namespace PackageSet

/-- The set as octets: the platform and then every name with the digest of its artifact. -/
def octets (s : PackageSet) : List UInt8 :=
  Utf8.encode s.platform.name
    ++ s.packages.entries.flatMap (fun e => 0 :: Utf8.encode e.1 ++ 0 :: Utf8.encode e.2.digest)

def digest (s : PackageSet) : String := Sha256.digest s.octets

def size (s : PackageSet) : Nat := s.packages.size

def names (s : PackageSet) : List String := s.packages.names

def packagesToJson (packages : NameMap Artifact) : Json := .object (packages.map Artifact.toJson)

def toJson (s : PackageSet) : Json :=
  .ofFields [("system", .text s.platform.name), ("packages", packagesToJson s.packages)]

end PackageSet

end HostFleet
