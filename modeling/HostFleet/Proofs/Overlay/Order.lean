import HostFleet.Proofs.Overlay.Relay
import HostFleet.Proofs.Overlay.Settling

/-!
# The order of look-ups

A recipe that is answered with a cycle can go on and give a value, and that value is kept. Where the circle was entered
decides which of its recipes gets the answer, so a name that is looked up alone may come to another value than in the finished
set, where other names are looked up before it. This takes a cycle: a name whose own look-up meets none has its value from an
evaluation that comes to an end, and such a value is the same in every run, whatever recipes do about other faults.
-/

namespace HostFleet.Overlay

variable {α : Type}

def Fault.IsCycle : Fault → Prop
  | .cycle _ => True
  | _ => False

namespace Problem

/-- The first moment of a run in which one name is looked up and no other. -/
def alone (p : Problem α) (name : String) : Moment α := { p.start with todo := [name] }

variable {p : Problem α} {solution : NameMap α}

theorem clear_start_of_yieldsTo (hp : p.YieldsTo Fault.IsCycle) (hsolved : p.solve.1 = .ok solution) : p.Clear p.start := by
  intro m key hm hact hnew hcycle
  obtain ⟨last, result, hlast, hended, hsolve⟩ := p.course_ends
  let answered : Moment α := m.reply (.error (.cycle (p.cyclePath m.state.running key)), m.state)
  have hmet : p.Meets answered := Leads.tail hm (.cycle hact hnew hcycle)
  have hfaulty := Leads.faulty hp (hmet.to_end hlast (next_of_ended hended)) hmet trivial
  rw [hsolve] at hsolved
  cases result with
  | error e => cases hsolved
  | ok found =>
    rw [hended] at hfaulty
    exact hfaulty

theorem lookupFinal_of_clear (hsolved : p.solve.1 = .ok solution) {name : String} {a : α} (hget : solution.get? name = some a)
    (hclear : p.Clear (p.alone name) ∨ p.Clear p.start) : (p.lookupFinal name {}).1 = .ok a := by
  have hsteady : p.Steady {} := fun key b hfound => by simp [State.found?] at hfound
  have hbacked : p.Backed ({} : State α).found? := ⟨0, fun key b hfound => by simp [State.found?] at hfound⟩
  obtain ⟨found, after, hcollect, hfound⟩ := p.exists_collect_of_solve_eq_ok hsolved
  have hmem := (hfound name a).1 hget
  rcases hclear with halone | hstart
  · let seeking : Moment α :=
      { p.alone name with activity := .seek name p.layers.length "<final>", wanted := name, todo := [] }
    have hseeking : p.Leads (p.alone name) seeking := .head (.want rfl rfl) (.refl _)
    obtain ⟨⟨depth, hreply⟩, -⟩ := lookupFinal_settles (m := seeking) rfl (halone.later hseeking) hbacked
    exact eq_ok_of_mem_collect hsteady rfl hcollect hmem hreply
  · obtain ⟨depth, hreply⟩ := exists_reply?_of_mem_collect (m := p.start) rfl rfl rfl hstart hbacked hcollect hmem
    exact (lookupFinal_gives hsteady rfl hreply).result

end Problem

/-- Two definitions that fall back on a value of their own when the other one is not to be had. -/
def hedged : List (Overlay Nat) :=
  [((new "t").bind "a" fun _ => .final "b" fun answer => .value (answer.toOption.getD 1)).bind "b" fun _ =>
      .final "a" fun answer => .value (answer.toOption.getD 2)]

theorem hedged_depends_on_order :
    ¬ ∀ (chain : List (Overlay Nat)) (platform : Platform) (base solution : NameMap Nat),
      apply chain platform base = .ok solution → ∀ name a, solution.get? name = some a →
        ((Problem.mk platform base (stack chain)).lookupFinal name {}).1 = .ok a := by
  intro h
  have hsolved : apply hedged ⟨"x86_64-linux"⟩ .empty = .ok (.ofList [("a", 2), ("b", 2)]) := by decide +kernel
  have halone : ((Problem.mk ⟨"x86_64-linux"⟩ .empty (stack hedged)).lookupFinal "b" {}).1 = .ok 1 := by decide +kernel
  have hsame := h hedged _ _ _ hsolved "b" 2 (by decide +kernel)
  rw [halone] at hsame
  cases hsame

/-- A name of a solved set that is looked up alone, by a solver that knows nothing yet, has its value in the set, if that look-up
meets no cycle, or if none was met when the set was solved. The latter is so if every recipe gives way to cycles. -/
theorem lone_look_up_agrees {chain : List (Overlay α)} {platform : Platform} {base solution : NameMap α}
    (hsolved : apply chain platform base = .ok solution) :
    let p : Problem α := ⟨platform, base, stack chain⟩
    (∀ name a, solution.get? name = some a → p.Clear (p.alone name) ∨ p.Clear p.start → (p.lookupFinal name {}).1 = .ok a) ∧
    ((∀ o ∈ chain, o.YieldsTo Fault.IsCycle) → p.Clear p.start) := by
  intro p
  refine ⟨fun name a hget hclear => Problem.lookupFinal_of_clear hsolved hget hclear, fun hchain => ?_⟩
  have hyields : p.YieldsTo Fault.IsCycle := fun key binding hbinding => Problem.each_stack hchain hbinding _
  exact Problem.clear_start_of_yieldsTo hyields hsolved

/-- Goes on with a value of its own if a package is missing. -/
def orSpare (spare : Nat) : Except Fault Nat → Recipe Nat
  | .ok n => .value n
  | .error (.missing _ _) => .value spare
  | .error e => .fault e

theorem yieldsTo_orSpare (spare : Nat) :
    (∀ e, e.IsCycle → orSpare spare (.error e) = .fault e) ∧
    ∀ answer, (orSpare spare answer).YieldsTo Fault.IsCycle := by
  refine ⟨fun e hcycle => ?_, fun answer => ?_⟩
  · cases e with
    | cycle path => rfl
    | missing _ _ => exact hcycle.elim
    | evaluation _ _ _ => exact hcycle.elim
  · rcases answer with (_ | _ | _) | _ <;> trivial

/-- Definitions that do without a package that nobody has, over two layers. -/
def tolerant : List (Overlay Nat) :=
  [((new "site").bind "lib" fun _ => .final "ghost" (orSpare 1)).bind "app" fun _ => .final "lib" (orSpare 5),
    (new "extra").bind "lib" fun _ => .demandPrev "lib" fun n => .value (n + 10)]

theorem yieldsTo_tolerant : ∀ o ∈ tolerant, o.YieldsTo Fault.IsCycle := by
  intro o ho
  simp only [tolerant, List.mem_cons, List.not_mem_nil, or_false] at ho
  rcases ho with rfl | rfl
  · exact ((each_new _ "site").bindWith (fun _ => yieldsTo_orSpare 1) "lib").bindWith (fun _ => yieldsTo_orSpare 5) "app"
  · refine (each_new _ "extra").bindWith (fun _ => ⟨fun e _ => rfl, fun answer => ?_⟩) "lib"
    cases answer <;> trivial

theorem tolerant_lone_look_up :
    apply tolerant ⟨"x86_64-linux"⟩ .empty = .ok (.ofList [("app", 11), ("lib", 11)]) ∧
    ((Problem.mk ⟨"x86_64-linux"⟩ .empty (stack tolerant)).lookupFinal "app" {}).1 = .ok 11 := by
  have hsolved : apply tolerant ⟨"x86_64-linux"⟩ .empty = .ok (.ofList [("app", 11), ("lib", 11)]) := by decide +kernel
  obtain ⟨hagrees, hclear⟩ := lone_look_up_agrees hsolved
  exact ⟨hsolved, hagrees "app" 11 (by decide +kernel) (.inr (hclear yieldsTo_tolerant))⟩

end HostFleet.Overlay
