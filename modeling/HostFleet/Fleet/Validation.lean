import HostFleet.Fleet.Definition

/-!
# Warnings about a definition

A definition may be fine and still not what was meant. Warnings name modules whose files do not exist, groups without
hosts, and modules that a host imports more than once; they stop nothing.
-/

namespace HostFleet

/-- Something that is probably not what was meant. -/
structure Warning where
  place : String
  item : String
  message : String
  deriving DecidableEq, Repr

namespace Definition

def hostPlace (host : Host) : String := "host " ++ host.name

/-- Whether a module is named by a path under the root. -/
def isFileModule (m : ModuleRef) : Bool := m.toList.contains '/' && !m.toList.contains ':'

/-- The modules that are named in the definition, with the places where they are named. -/
def namedModules (d : Definition) : List (String × ModuleRef) :=
  d.settings.commonModules.map (Settings.fileName, ·)
    ++ d.registry.toList.flatMap fun h => h.modules.map (hostPlace h, ·)

def missingModules (d : Definition) (fs : FileSystem) : List Warning :=
  (d.namedModules.filter fun (_, m) => isFileModule m && !fs.has (d.root.join m)).map fun (place, m) =>
    ⟨place, m, "module file does not exist"⟩

def emptyGroups (d : Definition) : List Warning :=
  (d.registry.groups.entries.filter fun g => g.2.isEmpty).map fun g => ⟨"hosts", g.1, "group contains no hosts"⟩

def imports (d : Definition) (host : Host) : List ModuleRef := Composition.compose d.settings.commonModules host.modules

def repeatWarning (host : Host) (m : ModuleRef) : Warning :=
  ⟨hostPlace host, m, "module is imported more than once; the last import wins"⟩

def repeatedModules (d : Definition) : List Warning :=
  d.registry.toList.flatMap fun h => (Composition.repeated (d.imports h)).map (repeatWarning h)

/-- The checks in order, with their names. -/
def checks (d : Definition) (fs : FileSystem) : List (String × List Warning) :=
  [("modules", d.missingModules fs), ("groups", d.emptyGroups), ("composition", d.repeatedModules)]

def warnings (d : Definition) (fs : FileSystem) : List Warning := (d.checks fs).flatMap Prod.snd

def checkEvents (d : Definition) (fs : FileSystem) : List Log.Event :=
  (d.checks fs).map fun (name, found) =>
    ⟨.debug, .validation, "validator " ++ name ++ ": " ++ toString found.length ++ " warning(s)"⟩

end Definition

end HostFleet
