import HostFleet.FileSystem.Basic

/-!
# Snapshots

A file system known at some paths only. Nothing is known to be at any other path.
-/

namespace HostFleet

/-- What is at a path: whether it is a directory, what stands in it, and what it holds. -/
structure Sighting where
  isDir : Bool
  names : Except IoFault (List FileName)
  content : Except IoFault (List UInt8)

/-- What was found at some paths, or why nothing was. -/
abbrev Snapshot := List (Path × Except IoFault Sighting)

namespace Snapshot

def find (s : Snapshot) (path : Path) : Except IoFault Sighting :=
  match List.find? (fun e => e.1 = path) s with
  | none => .error .missing
  | some (_, seen) => seen

def knows (s : Snapshot) (path : Path) : Bool := s.any fun e => e.1 = path

def fileSystem (s : Snapshot) : FileSystem where
  has p := (s.find p).isOk
  isDir p := match s.find p with
    | .ok seen => seen.isDir
    | .error _ => false
  list p := do
    let seen ← s.find p
    let names ← seen.names
    .ok (names.map fun n => p.join ⟨n⟩)
  read p := do
    let seen ← s.find p
    let octets ← seen.content
    match Utf8.decode? octets with
    | none => .error .notText
    | some text => .ok text

end Snapshot

end HostFleet
