import HostFleet.NameMap
import HostFleet.Overlay.Recipe
import HostFleet.Text.Quoted

/-!
# Overlays

An overlay is a stack of layers, and a layer binds package names to recipes. A fresh overlay has one layer; merging two
overlays stacks their layers, each of which keeps the name of the overlay it was written in. A chain of overlays is
solved as the one stack of all their layers, so how a chain was merged makes no difference.
-/

namespace HostFleet

namespace Overlay

/-- A definition, together with the platforms it exists on. -/
structure Binding (α : Type) where
  recipe : Scope → Recipe α
  accepts : Platform → Bool := fun _ => true

/-- The definitions written in one overlay, and its name. -/
structure Layer (α : Type) where
  origin : String
  bindings : NameMap (Binding α)

def Layer.binds {α : Type} (layer : Layer α) (platform : Platform) (name : String) : Bool :=
  (layer.bindings.get? name).any fun binding => binding.accepts platform

end Overlay

/-- An overlay: a name and a non-empty stack of layers. -/
structure Overlay (α : Type) where
  name : String
  lower : List (Overlay.Layer α)
  top : Overlay.Layer α

namespace Overlay

variable {α : Type}

def new (name : String) : Overlay α := ⟨name, [], ⟨name, .empty⟩⟩

instance : Inhabited (Overlay α) := ⟨new ""⟩

/-- The layers from the bottom up. -/
def layers (o : Overlay α) : List (Layer α) := o.lower ++ [o.top]

/-- Binds a package in the top layer, over a binding that layer had for it. -/
def bindWith (o : Overlay α) (package : String) (binding : Binding α) : Overlay α :=
  { o with top := { o.top with bindings := o.top.bindings.insert package binding } }

def bind (o : Overlay α) (package : String) (recipe : Scope → Recipe α) : Overlay α :=
  o.bindWith package { recipe }

/-- Binds a package to a recipe on the platforms that pass a test. -/
def bindIf (o : Overlay α) (package : String) (accepts : Platform → Bool) (recipe : Scope → Recipe α) : Overlay α :=
  o.bindWith package { recipe, accepts }

def set (o : Overlay α) (package : String) (a : α) : Overlay α := o.bind package fun _ => .value a

/-- Stacks the layers of a second overlay on those of the first. -/
def merge (o next : Overlay α) : Overlay α :=
  ⟨o.name ++ "+" ++ next.name, o.layers ++ next.lower, next.top⟩

def mergeAll? : List (Overlay α) → Option (Overlay α)
  | [] => none
  | o :: rest => some (rest.foldl merge o)

/-- Every name that some layer binds on some platform, sorted and without repeats. -/
def names (o : Overlay α) : List String :=
  (NameMap.ofList (o.layers.flatMap fun l => l.bindings.names.map fun n => (n, ()))).names

@[simp] theorem layers_merge (o next : Overlay α) : (o.merge next).layers = o.layers ++ next.layers := by
  simp [layers, merge]

/-- The layers of a chain of overlays from the bottom up. -/
def stack (chain : List (Overlay α)) : List (Layer α) := chain.flatMap layers

theorem stack_cons (o : Overlay α) (chain : List (Overlay α)) : stack (o :: chain) = o.layers ++ stack chain := rfl

theorem stack_append (chain chain' : List (Overlay α)) : stack (chain ++ chain') = stack chain ++ stack chain' :=
  List.flatMap_append

/-! ### For people who look at a run -/

def Scope.describe (scope : Scope) : String :=
  "Scope \x7b system: Arch(" ++ Text.quoted scope.platform.name ++ "), level: " ++ toString scope.level ++
    ", package: " ++ Text.quoted scope.package ++ " \x7d"

def describe (o : Overlay α) : String :=
  "Overlay \x7b name: " ++ Text.quoted o.name ++ ", bindings: " ++ Text.quotedList o.names ++ " \x7d"

def describeChain (chain : List (Overlay α)) : String := Text.quotedList (chain.map name)

end Overlay

end HostFleet
