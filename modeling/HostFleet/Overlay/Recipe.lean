import HostFleet.Platform

/-!
# Recipes: how an overlay defines a package

An overlay defines a package by a computation that may look other packages up, either in the set below its own layer or
in the finished set. A `Recipe` is that computation as data: a tree that either has a result or asks one question and
goes on with the answer. A failed look-up is an answer too, so a recipe may recover from it; `demand` and its siblings are
for recipes that do not.
-/

namespace HostFleet.Overlay

/-- Why a package has no value. -/
inductive Fault where
  /-- A package needs itself. The path lists the definitions around the cycle, the first one again at the end. -/
  | cycle (path : List String)
  /-- No visible definition of a package that some definition looked up. -/
  | missing (package requestedBy : String)
  /-- A definition gave up, for the stated reason. -/
  | evaluation (overlay package reason : String)
  deriving DecidableEq, Repr

def Fault.message : Fault → String
  | .cycle path => "Overlay cycle detected: " ++ " -> ".intercalate path
  | .missing package requestedBy => s!"Package '{package}' is not defined (requested by {requestedBy})"
  | .evaluation overlay package reason => s!"Overlay '{overlay}' failed to evaluate '{package}': {reason}"

/-- Where a definition stands: the platform it is evaluated for, its layer counted from the bottom, the package it
defines and the overlay it was written in. -/
structure Scope where
  platform : Platform
  level : Nat
  package : String
  origin : String
  deriving DecidableEq, Repr

namespace Scope

/-- The definition's name in messages. -/
def frame (scope : Scope) : String := scope.origin ++ ":" ++ scope.package

/-- The fault with which a definition gives up. -/
def fail (scope : Scope) (reason : String) : Fault := .evaluation scope.origin scope.package reason

end Scope

/-- The computation of a value of type `α` from other packages. -/
inductive Recipe (α : Type) where
  /-- The value, or the fault, of the package. -/
  | done (result : Except Fault α)
  /-- Looks a package up in the set below the layer of this definition. -/
  | prev (package : String) (next : Except Fault α → Recipe α)
  /-- Looks a package up in the finished set. -/
  | final (package : String) (next : Except Fault α → Recipe α)
  /-- Asks whether the set below the layer of this definition has a package. -/
  | hasPrev (package : String) (next : Bool → Recipe α)
  /-- Leaves a remark in the journal of the run. -/
  | remark (text : String) (next : Recipe α)

namespace Recipe

variable {α : Type}

def value (a : α) : Recipe α := .done (.ok a)

def fault (e : Fault) : Recipe α := .done (.error e)

/-- Goes on with a value and passes a fault on. -/
def orFault (next : α → Recipe α) : Except Fault α → Recipe α
  | .ok a => next a
  | .error e => fault e

/-- Needs a package of the set below. -/
def demandPrev (package : String) (next : α → Recipe α) : Recipe α := .prev package (orFault next)

/-- Needs a package of the finished set. -/
def demand (package : String) (next : α → Recipe α) : Recipe α := .final package (orFault next)

/-- Needs several packages of the finished set, in order, and then goes on without their values. -/
def demandAll : List String → Recipe α → Recipe α
  | [], next => next
  | package :: rest, next => demand package fun _ => demandAll rest next

/-- A recipe is error-propagating if every fault it is answered with is at once its own result, and its other faults are
its own giving up. -/
def Propagates (scope : Scope) : Recipe α → Prop
  | .done (.ok _) => True
  | .done (.error e) => ∃ reason, e = scope.fail reason
  | .prev _ next => (∀ e, next (.error e) = fault e) ∧ ∀ a, (next (.ok a)).Propagates scope
  | .final _ next => (∀ e, next (.error e) = fault e) ∧ ∀ a, (next (.ok a)).Propagates scope
  | .hasPrev _ next => ∀ b, (next b).Propagates scope
  | .remark _ next => next.Propagates scope

end Recipe

end HostFleet.Overlay
