import HostFleet.Overlay.Basic
import HostFleet.Package.Artifact
import HostFleet.Toml.Decode

/-!
# Overrides

Overlays are usually written as data. An `Override` says how one package is defined: as another name for a package of the
finished set, as a change of the definition below, or as a new package.
-/

namespace HostFleet

/-- The definition of a package in an overlay. -/
structure Override where
  /-- Start from the definition below instead of a new package. -/
  inherits : Bool := false
  /-- Be another package of the finished set. -/
  target : Option String := none
  version : Option String := none
  patches : List String := []
  attrs : NameMap String := {}
  inputs : Option (List String) := none
  /-- The platforms the definition is limited to; none means no limit. -/
  platforms : List Platform := []

namespace Override

/-- Changes an artifact: a new version if there is one, more patches, attributes put over the old ones, and other inputs
if they are given. -/
def change (o : Override) (a : Artifact) : Artifact :=
  { a with
    version := o.version.getD a.version
    patches := a.patches ++ o.patches
    attrs := a.attrs.override o.attrs
    inputs := o.inputs.getD a.inputs }

def create (o : Override) (package version : String) (platform : Platform) : Artifact where
  pname := package
  version := version
  platform := platform
  patches := o.patches
  inputs := o.inputs.getD []
  attrs := o.attrs

/-- The artifact, once every input that the override lists was found in the finished set. -/
def withInputs (o : Override) (a : Artifact) : Overlay.Recipe Artifact :=
  .demandAll (o.inputs.getD []) (.value a)

/-- The computation that the override stands for. -/
def recipe (o : Override) (scope : Overlay.Scope) : Overlay.Recipe Artifact :=
  match o.target with
  | some target => .demand target .value
  | none =>
    if o.inherits then .demandPrev scope.package fun a => o.withInputs (o.change a)
    else
      match o.version with
      | none => .fault (scope.fail "no version given")
      | some version => o.withInputs (o.create scope.package version scope.platform)

def appliesOn (o : Override) (platform : Platform) : Bool := o.platforms.isEmpty || o.platforms.contains platform

def overlay (name : String) (packages : NameMap Override) : Overlay Artifact :=
  packages.entries.foldl (fun overlay e => overlay.bindIf e.1 e.2.appliesOn e.2.recipe) (.new name)

/-- Why an override makes no sense. -/
inductive Misuse where
  /-- Another name for a package is given together with something else. -/
  | mixedAlias
  | noVersion
  deriving DecidableEq, Repr

def Misuse.message (package : String) : Misuse → String
  | .mixedAlias => "package '" ++ package ++ "': 'alias' cannot be combined with other keys"
  | .noVersion =>
    "package '" ++ package ++ "': a new package needs a 'version' (or set 'extends = true')"

/-- Whether nothing is given, a target aside. -/
def isBare (o : Override) : Bool :=
  !o.inherits && o.version.isNone && o.patches.isEmpty && o.attrs.isEmpty && o.inputs.isNone && o.platforms.isEmpty

/-- Checks that what is given can be used together. -/
def check (o : Override) : Except Misuse Unit :=
  match o.target with
  | some _ => if o.isBare then .ok () else .error .mixedAlias
  | none => if !o.inherits && o.version.isNone then .error .noVersion else .ok ()

def shape : Toml.Shape Override where
  title := "PackageOverride"
  start := {}
  fields :=
    [.of "extends" .boolean (fun a o => { o with inherits := a }),
      .of "alias" .text (fun a o => { o with target := some a }),
      .of "version" .text (fun a o => { o with version := some a }),
      .of "patches" (.list .text) (fun a o => { o with patches := a }),
      .of "attrs" (.map .text) (fun a o => { o with attrs := a }),
      .of "inputs" (.list .text) (fun a o => { o with inputs := some a }),
      .of "systems" (.list .text) (fun a o => { o with platforms := a.map Platform.mk })]

end Override

end HostFleet
