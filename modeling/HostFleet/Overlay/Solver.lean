import HostFleet.Overlay.Basic

/-!
# Solving a stack of layers

A stack of layers over a base is solved lazily. A look-up goes to the topmost visible layer that binds the name on the
platform, else to the base. The solver runs each binding it needs once, keeps the value in a memo, and keeps the bindings
that are running on a stack: a binding that comes up while it is running is a cycle. Everything the solver knows is in a
`State`, which every step takes and returns, on a fault as well.
-/

namespace HostFleet.Overlay

variable {α : Type}

/-- What is to be solved: a stack of layers over a base, for one platform. -/
structure Problem (α : Type) where
  platform : Platform
  base : NameMap α
  layers : List (Layer α)

/-- A binding, by its layer counted from the bottom and its name. -/
structure Key where
  layer : Nat
  name : String
  deriving DecidableEq, Repr

/-- What happens during a run: the binding of a key starts, or a recipe leaves a remark. -/
inductive Happening where
  | started (key : Key)
  | remark (text : String)
  deriving DecidableEq, Repr

/-- What the solver knows: the values found so far, the bindings that are running with the latest first, and all that
happened, with the latest first. -/
structure State (α : Type) where
  memo : List (Key × α) := []
  running : List Key := []
  past : List Happening := []

namespace State

def found? (state : State α) (key : Key) : Option α :=
  (state.memo.find? fun entry => entry.1 = key).map Prod.snd

def push (state : State α) (key : Key) : State α :=
  { state with running := key :: state.running, past := .started key :: state.past }

/-- The latest key is done; a value is kept. -/
def pop (state : State α) (key : Key) (result : Except Fault α) : State α :=
  { state with
    running := state.running.tail
    memo := match result with
      | .ok a => (key, a) :: state.memo
      | .error _ => state.memo }

def remark (state : State α) (text : String) : State α :=
  { state with past := .remark text :: state.past }

def journal (state : State α) : List Happening := state.past.reverse

end State

/-- A step of the solver: a result and what the solver knows then. -/
abbrev Step (α β : Type) := State α → Except Fault β × State α

namespace Problem

/-- The binding that stands under a key, on whatever platforms it exists. -/
def stored? (p : Problem α) (key : Key) : Option (Binding α) := do
  let layer ← p.layers[key.layer]?
  layer.bindings.get? key.name

def origin (p : Problem α) (layer : Nat) : String := ((p.layers[layer]?).map Layer.origin).getD "<base>"

def scope (p : Problem α) (key : Key) : Scope := ⟨p.platform, key.layer, key.name, p.origin key.layer⟩

/-- The topmost layer below a height that binds a name on the platform. -/
def topmost? (p : Problem α) (name : String) : (height : Nat) → Option Nat
  | 0 => none
  | below + 1 => if (p.layers[below]?).any (·.binds p.platform name) then some below else p.topmost? name below

/-- Whether the set below a height has a name. -/
def defined (p : Problem α) (height : Nat) (name : String) : Bool :=
  p.base.contains name || (p.layers.take height).any fun layer => layer.binds p.platform name

/-- The keys under which a binding stands, from the bottom up. -/
def storedKeys (p : Problem α) : List Key :=
  p.layers.zipIdx.flatMap fun (layer, index) => layer.bindings.names.map (Key.mk index)

/-- The keys that the layers bind on the platform, from the bottom up. -/
def boundKeys (p : Problem α) : List Key :=
  p.layers.zipIdx.flatMap fun (layer, index) =>
    (layer.bindings.names.filter fun name => layer.binds p.platform name).map (Key.mk index)

/-- The names of the finished set, sorted: those of the base and those bound on the platform. -/
def names (p : Problem α) : List String :=
  (NameMap.ofList ((p.base.names ++ p.boundKeys.map Key.name).map fun n => (n, ()))).names

/-- The definitions from a running key up to the latest one, and the key again. -/
def cyclePath (p : Problem α) (running : List Key) (key : Key) : List String :=
  (key :: ((running.takeWhile (· ≠ key)).reverse ++ [key])).map fun k => (p.scope k).frame

/-- Looks a name up below a height, for a named requester, where `force` evaluates a binding. -/
def lookup (p : Problem α) (force : Key → Step α α) (name : String) (height : Nat) (requester : String) : Step α α :=
  fun state =>
    match p.topmost? name height with
    | some layer => force ⟨layer, name⟩ state
    | none =>
      match p.base.get? name with
      | some a => (.ok a, state)
      | none => (.error (.missing name requester), state)

/-- Runs a recipe to its result, where `force` evaluates the bindings it looks up. -/
def run (p : Problem α) (force : Key → Step α α) (scope : Scope) : Recipe α → Step α α
  | .done result, state => (result, state)
  | .remark text next, state => p.run force scope next (state.remark text)
  | .hasPrev name next, state => p.run force scope (next (p.defined scope.level name)) state
  | .prev name next, state =>
    let (answer, state) := p.lookup force name scope.level scope.frame state
    p.run force scope (next answer) state
  | .final name next, state =>
    let (answer, state) := p.lookup force name p.layers.length scope.frame state
    p.run force scope (next answer) state

/-- Evaluates the binding that stands under a key, with room for so many bindings running inside one another. A binding
that was evaluated before is not run again, and a binding that is running is a cycle. The platform plays no part here: it
is for the look-up to ask only for bindings that exist on it. Only a key without a binding, or a stack higher than the
room, would end in the last fault. -/
def force (p : Problem α) : (room : Nat) → Key → Step α α
  | room, key => fun state =>
    match state.found? key with
    | some a => (.ok a, state)
    | none =>
      if key ∈ state.running then (.error (.cycle (p.cyclePath state.running key)), state)
      else
        match p.stored? key, room with
        | some binding, room + 1 =>
          let scope := p.scope key
          let (result, state) := p.run (p.force room) scope (binding.recipe scope) (state.push key)
          (result, state.pop key result)
        | _, _ => (.error (.missing key.name "<solver>"), state)

/-- The most bindings that can be running inside one another: each of them once. -/
def room (p : Problem α) : Nat := p.storedKeys.length

def lookupFinal (p : Problem α) (name : String) : Step α α :=
  p.lookup (p.force p.room) name p.layers.length "<final>"

/-- Looks names up in the finished set one after another, up to the first fault. -/
def collect (p : Problem α) : List String → Step α (List (String × α))
  | [], state => (.ok [], state)
  | name :: rest, state =>
    match p.lookupFinal name state with
    | (.error e, state) => (.error e, state)
    | (.ok a, state) =>
      match p.collect rest state with
      | (.error e, state) => (.error e, state)
      | (.ok found, state) => (.ok ((name, a) :: found), state)

/-- Solves the problem: the value of every name of the finished set, or the first fault. -/
def solve (p : Problem α) : Except Fault (NameMap α) × State α :=
  let (result, state) := p.collect p.names {}
  (result.map NameMap.ofList, state)

end Problem

/-- The finished set of a chain of overlays over a base, on a platform. -/
def apply (chain : List (Overlay α)) (platform : Platform) (base : NameMap α) : Except Fault (NameMap α) :=
  (Problem.mk platform base (stack chain)).solve.1

end HostFleet.Overlay
