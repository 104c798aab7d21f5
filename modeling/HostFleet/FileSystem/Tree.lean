import HostFleet.FileSystem.Basic

/-!
# File trees

A file tree as a value, with two ways to look paths up in it. The `lexical` view first simplifies the text of a path, so
`a/..` is the root whether or not there is an `a`. The `mounted` view walks a path step by step as an operating system
does, from a working directory.
-/

namespace HostFleet

/-- A file or a directory with all that is in it. A file may fail to be read and a directory to be listed, with a number
of the operating system. -/
inductive FileTree where
  | file (content : Except Int (List UInt8))
  | dir (fault : Option Int) (children : List (FileName × FileTree))

namespace FileTree

def empty : FileTree := .dir none []

instance : Inhabited FileTree := ⟨empty⟩

def isDir : FileTree → Bool
  | .file _ => false
  | .dir _ _ => true

def child? (tree : FileTree) (name : FileName) : Option FileTree :=
  match tree with
  | .file _ => none
  | .dir _ children => (children.find? (fun c => c.1 = name)).map Prod.snd

/-- Puts a tree under a name among sorted children, in place of what was there. -/
def place (name : FileName) (tree : FileTree) : List (FileName × FileTree) → List (FileName × FileTree)
  | [] => [(name, tree)]
  | c :: rest =>
    if c.1 = name then (name, tree) :: rest
    else if name < c.1 then (name, tree) :: c :: rest
    else c :: place name tree rest

/-- Puts a tree under a path of names, making directories on the way. -/
def insert (tree : FileTree) (names : List FileName) (what : FileTree) : FileTree :=
  match names with
  | [] => what
  | name :: names =>
    let (fault, children) := match tree with
      | .file _ => (none, [])
      | .dir fault children => (fault, children)
    let inner := ((children.find? (fun c => c.1 = name)).map Prod.snd).getD empty
    .dir fault (place name (inner.insert names what) children)

def names : FileTree → Except IoFault (List FileName)
  | .file (.error code) => .error (.os code)
  | .file (.ok _) => .error .notDirectory
  | .dir (some code) _ => .error (.os code)
  | .dir none children => .ok (children.map Prod.fst)

def content : FileTree → Except IoFault String
  | .dir (some code) _ => .error (.os code)
  | .dir none _ => .error .isDirectory
  | .file (.error code) => .error (.os code)
  | .file (.ok octets) =>
    match Utf8.decode? octets with
    | none => .error .notText
    | some s => .ok s

/-- The answers to questions about paths, given how a path is looked up. -/
def viewed (find : Path → Except IoFault FileTree) : FileSystem where
  has p := (find p).isOk
  isDir p := match find p with
    | .ok t => t.isDir
    | .error _ => false
  list p := do
    let t ← find p
    let names ← t.names
    .ok (names.map fun n => p.join ⟨n⟩)
  read p := do
    let t ← find p
    t.content

/-- What stands under a path of names. Nothing stands below a file. -/
def descend (tree : FileTree) : List FileName → Except IoFault FileTree
  | [] => .ok tree
  | name :: names =>
    match tree with
    | .file _ => .error .notDirectory
    | .dir _ _ =>
      match tree.child? name with
      | none => .error .missing
      | some t => t.descend names

/-- The tree as a file system whose paths are simplified before they are looked up. -/
def lexical (tree : FileTree) : FileSystem := viewed fun p => tree.descend p.normal

def nameLimit : Nat := 255

def pathLimit : Nat := 4095

/-- Walks the parts of a path from a directory, given with the directories around it from the inside out; `top` is the
outermost one. A directory looks no name up that is too long. -/
def walk (top here : FileTree) (around : List FileTree) : List FileName → Except IoFault FileTree
  | [] => .ok here
  | part :: parts =>
    if here.isDir then
      if part = [] ∨ part = Path.here then walk top here around parts
      else if part = Path.up then
        match around with
        | [] => walk top top [] parts
        | outer :: around => walk top outer around parts
      else if nameLimit < part.length then .error .nameTooLong
      else
        match here.child? part with
        | none => .error .missing
        | some t => walk top t (here :: around) parts
    else .error .notDirectory

/-- The tree as a file system whose paths are walked, relative ones from the directory `cwd`. Only the path itself has to
keep within the limit, not the path with the directory before it. -/
def mounted (tree : FileTree) (cwd : Path) : FileSystem := viewed fun p =>
  if p.octets = [] then .error .missing
  else if p.octets.contains 0 then .error .badPath
  else if pathLimit < p.octets.length then .error .nameTooLong
  else walk tree tree [] (cwd.join p).parts

end FileTree

end HostFleet
