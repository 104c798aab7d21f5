import HostFleet.Fleet.Fault
import HostFleet.Registry
import HostFleet.Toml.Decode

/-!
# Settings of a fleet

Configuration is read from TOML files. A required file must exist; an optional one counts as empty when it does not. The
settings of a fleet are what the file at its root says. Everything in it may be left out.
-/

namespace HostFleet

namespace Document

variable {α : Type}

def decode (read : Toml.Table → Except Toml.Fault α) (text : String) : Except Failure α :=
  (Toml.decodeText read text).mapError fun fault => { cause := .toml fault }

/-- Reads and decodes a file that must exist. -/
def required (read : Toml.Table → Except Toml.Fault α) (fs : FileSystem) (path : Path) : Except Failure α := do
  let text ← (fs.read path).mapError fun fault =>
    { contexts := ["Failed to read config file: " ++ path.text], cause := .io fault }
  (decode read text).mapError (·.within ("Failed to parse TOML config: " ++ path.text))

/-- Reads and decodes a file that may be absent. -/
def optional (read : Toml.Table → Except Toml.Fault α) (fs : FileSystem) (path : Path) : Except Failure α :=
  if fs.has path then required read fs path
  else (decode read "").mapError (·.within "Failed to create empty config")

end Document

structure Settings where
  /-- What follows the name of a host in its address; empty for bare names. -/
  domain : String := "ocf.berkeley.edu"
  targetUser : String := "root"
  allowLocalDeployment : Bool := true
  defaultPlatform : Platform := ⟨"x86_64-linux"⟩
  /-- The platforms that may be used; none means any. -/
  platforms : List Platform := []
  hostsDir : Path := .ofText "hosts"
  catalog : Path := .ofText "packages.toml"
  commonModules : List ModuleRef := []
  /-- The overlay files from the bottom up. -/
  overlays : List Path := []
  specialArgs : NameMap Json := {}

namespace Settings

def fileName : String := "fleet.toml"

def shape : Toml.Shape Settings where
  title := "FleetConfig"
  start := {}
  fields :=
    [.of "domain" .text (fun a s => { s with domain := a }),
      .of "target_user" .text (fun a s => { s with targetUser := a }),
      .of "allow_local_deployment" .boolean (fun a s => { s with allowLocalDeployment := a }),
      .of "default_system" .text (fun a s => { s with defaultPlatform := ⟨a⟩ }),
      .of "systems" (.list .text) (fun a s => { s with platforms := a.map Platform.mk }),
      .of "hosts_dir" .path (fun a s => { s with hostsDir := .ofText a }),
      .of "catalog" .path (fun a s => { s with catalog := .ofText a }),
      .of "common_modules" (.list .text) (fun a s => { s with commonModules := a }),
      .of "overlays" (.list .path) (fun a s => { s with overlays := a.map Path.ofText }),
      .of "special_args" (.map fun v => .ok v.toJson) (fun a s => { s with specialArgs := a })]

def targetHost (s : Settings) (host : String) : String :=
  if s.domain = "" then host else host ++ "." ++ s.domain

end Settings

end HostFleet
