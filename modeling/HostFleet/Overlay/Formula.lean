import HostFleet.Overlay.Basic

/-!
# Formulas: recipes over integers

A small language of definitions whose values are 64-bit integers. It reaches every corner of what a recipe can do, also
recovering from a fault and looking at its own scope, so overlays over integers can be written down as data.
-/

namespace HostFleet.Overlay

/-- The operations on integers; all of them wrap around. -/
inductive Arith where
  | add
  | sub
  | mul
  deriving DecidableEq, Repr

def Arith.apply : Arith → Int64 → Int64 → Int64
  | .add => (· + ·)
  | .sub => (· - ·)
  | .mul => (· * ·)

inductive Formula where
  | int (n : Int64)
  | prev (package : String)
  | final (package : String)
  /-- One if the set below has the package, else zero. -/
  | hasPrev (package : String)
  /-- The operands combined from left to right. -/
  | arith (op : Arith) (first : Formula) (rest : List Formula)
  /-- The second formula unless the first is zero, else the third. -/
  | branch (test yes no : Formula)
  /-- One on the given platform, else zero. -/
  | platformIs (name : String)
  /-- One in the definition of the given package, else zero. -/
  | packageIs (name : String)
  | fail (reason : String)
  /-- The first formula, or the second if the first ends in a fault. -/
  | attempt (first second : Formula)
  /-- Zero, with a remark that shows the scope. -/
  | scope
  deriving Inhabited

/-- One for true and zero for false. -/
def truth (b : Bool) : Int64 := if b then 1 else 0

/-- Goes on with the result of a formula. -/
abbrev Cont := Except Fault Int64 → Recipe Int64

namespace Formula

mutual

/-- Evaluates a formula in a scope and goes on with the result. -/
def eval (scope : Scope) : Formula → Cont → Recipe Int64
  | .int n, next => next (.ok n)
  | .prev package, next => .prev package next
  | .final package, next => .final package next
  | .hasPrev package, next => .hasPrev package fun b => next (.ok (truth b))
  | .arith op first rest, next => eval scope first fun
    | .ok n => evalRest scope op n rest next
    | .error e => next (.error e)
  | .branch test yes no, next => eval scope test fun
    | .ok n => if n = 0 then eval scope no next else eval scope yes next
    | .error e => next (.error e)
  | .platformIs name, next => next (.ok (truth (scope.platform.name = name)))
  | .packageIs name, next => next (.ok (truth (scope.package = name)))
  | .fail reason, next => next (.error (scope.fail reason))
  | .attempt first second, next => eval scope first fun
    | .ok n => next (.ok n)
    | .error _ => eval scope second next
  | .scope, next => .remark scope.describe (next (.ok 0))

/-- Evaluates the remaining operands of an operation, from the value so far. -/
def evalRest (scope : Scope) (op : Arith) (sofar : Int64) : List Formula → Cont → Recipe Int64
  | [], next => next (.ok sofar)
  | operand :: rest, next => eval scope operand fun
    | .ok n => evalRest scope op (op.apply sofar n) rest next
    | .error e => next (.error e)

end

end Formula

end HostFleet.Overlay
