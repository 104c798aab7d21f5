import HostFleet.Command.Basic
import HostFleet.Command.Program
import HostFleet.FileSystem.Snapshot

/-!
# The command-line program

Looks at the files that the program asks about, runs it on what was found, and writes what it leaves behind.
-/

namespace HostFleet.Main

/-- The fault with a code, which may be given as its negative. -/
def faultWith (code : UInt32) : IoFault := .os (min code.toNat (0 - code).toNat : Nat)

def faultOf : IO.Error → IoFault
  | .noFileOrDirectory _ code _ => faultWith code
  | .permissionDenied _ code _ => faultWith code
  | .inappropriateType _ code _ => faultWith code
  | .invalidArgument _ code _ => faultWith code
  | .resourceExhausted _ code _ => faultWith code
  | .resourceBusy code _ => faultWith code
  | .hardwareFault code _ => faultWith code
  | .otherError code _ => faultWith code
  | _ => .os 5

def attempt (action : IO α) : IO (Except IoFault α) := do
  match ← action.toBaseIO with
  | .ok a => return .ok a
  | .error e => return .error (faultOf e)

def look (path : Path) : IO (Except IoFault Sighting) := do
  if path.octets = [] then return .error .missing
  if path.octets.contains 0 then return .error .badPath
  let place := (← IO.currentDir) / path.text
  if !(← place.pathExists) then
    return (← attempt (IO.FS.readBinFile place)).bind fun _ => .error .missing
  let isDir ← place.isDir
  let names ← attempt do
    let entries ← place.readDir
    return (entries.toList.map (·.fileName)).mergeSort (· ≤ ·) |>.map Utf8.encode
  let content ← attempt do return (← IO.FS.readBinFile place).toList
  return .ok { isDir, names, content }

/-- How often answers may lead to further questions: settings, directories, groups, host files, modules. -/
def rounds : Nat := 6

/-- Looks at everything that a command asks about. -/
def gather (surroundings : Snapshot → Surroundings) (asked : Option Path) : IO Snapshot := do
  let mut snapshot : Snapshot := []
  for _ in List.range rounds do
    for path in (surroundings snapshot).paths asked do
      if !snapshot.knows path then
        snapshot := (path, ← look path) :: snapshot
  return snapshot

end HostFleet.Main

def main (args : List String) : IO UInt32 := do
  let here := HostFleet.Path.ofText (← IO.currentDir).toString
  let preset := (← IO.getEnv "FLEET_ROOT").map HostFleet.Path.ofText
  let surroundings := fun (s : HostFleet.Snapshot) => HostFleet.Surroundings.mk s.fileSystem here preset
  let snapshot ← match HostFleet.Arguments.parse args with
    | .ok request => HostFleet.Main.gather surroundings (request.root.map HostFleet.Path.ofText)
    | .error _ => pure []
  let finish := HostFleet.Program.run ⟨args, surroundings snapshot, ← IO.getEnv "FLEET_LOG"⟩
  IO.print finish.output
  IO.eprint finish.errors
  return finish.code.toUInt32
