import HostFleet.Json
import HostFleet.NameMap
import HostFleet.Platform
import HostFleet.Sha256
import HostFleet.Text.Utf8

/-!
# Artifacts

An artifact is what a package is built to on one platform. Its digest is that of the `octets` that write its definition
down, with a mark in front of each item of a list.
-/

namespace HostFleet

/-- A package built for a platform. -/
structure Artifact where
  pname : String
  version : String
  platform : Platform
  patches : List String := []
  inputs : List String := []
  attrs : NameMap String := {}
  deriving DecidableEq

namespace Artifact

def fullName (a : Artifact) : String := a.pname ++ "-" ++ a.version

/-- The definition as octets: the three names with zeros between them, then patches, inputs and attributes, each kind
with a mark of its own. -/
def octets (a : Artifact) : List UInt8 :=
  Utf8.encode a.pname ++ 0 :: Utf8.encode a.version ++ 0 :: Utf8.encode a.platform.name
    ++ a.patches.flatMap (fun p => 1 :: Utf8.encode p)
    ++ a.inputs.flatMap (fun i => 2 :: Utf8.encode i)
    ++ a.attrs.entries.flatMap (fun e => 3 :: Utf8.encode e.1 ++ 0 :: Utf8.encode e.2)

def digest (a : Artifact) : String := Sha256.digest a.octets

/-- A change of one part of an artifact. -/
inductive Edit where
  | pname (s : String)
  | version (s : String)
  | platform (p : Platform)
  | addPatch (s : String)
  | addInput (s : String)
  | inputs (l : List String)
  | setAttr (name value : String)
  | dropAttr (name : String)

def edit (a : Artifact) : Edit → Artifact
  | .pname s => { a with pname := s }
  | .version s => { a with version := s }
  | .platform p => { a with platform := p }
  | .addPatch s => { a with patches := a.patches ++ [s] }
  | .addInput s => { a with inputs := a.inputs ++ [s] }
  | .inputs l => { a with inputs := l }
  | .setAttr name value => { a with attrs := a.attrs.insert name value }
  | .dropAttr name => { a with attrs := a.attrs.erase name }

def toJson (a : Artifact) : Json :=
  .ofFields <|
    [("pname", .text a.pname), ("version", .text a.version), ("system", .text a.platform.name)]
      ++ (if a.patches.isEmpty then [] else [("patches", .texts a.patches)])
      ++ (if a.inputs.isEmpty then [] else [("inputs", .texts a.inputs)])
      ++ (if a.attrs.isEmpty then [] else [("attrs", .object (a.attrs.map .text))])

end Artifact

end HostFleet
