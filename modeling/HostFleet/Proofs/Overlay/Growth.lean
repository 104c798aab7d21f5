import HostFleet.Proofs.Overlay.Once
import HostFleet.Proofs.Package.Declared

/-!
# Larger bases

A base may grow under a chain that is solved already. Recipes that pass faults on at once came to their values on values only,
so every look-up they made was answered by a binding or by the old base. A larger base answers these look-ups in the same way,
since bindings stand before it and it keeps the old entries, and recipes that do not ask with `hasPrev` cannot tell the
difference. So the solver takes the same steps, from the same state to the same state. Names that are new are bound by no
layer, or they would have been there before, and what they have is their value in the base.
-/

namespace HostFleet.Overlay

variable {α : Type}

namespace Recipe

/-- The recipe never asks whether the set below has a package. -/
def Unprobing : Recipe α → Prop
  | .done _ => True
  | .prev _ next => ∀ answer, (next answer).Unprobing
  | .final _ next => ∀ answer, (next answer).Unprobing
  | .hasPrev _ _ => False
  | .remark _ next => next.Unprobing

theorem unprobing_orFault {next : α → Recipe α} (h : ∀ a, (next a).Unprobing) (answer : Except Fault α) :
    (orFault next answer).Unprobing := by
  cases answer with
  | ok a => exact h a
  | error e => trivial

theorem unprobing_demandAll {next : Recipe α} (h : next.Unprobing) (packages : List String) :
    (demandAll packages next).Unprobing := by
  induction packages with
  | nil => exact h
  | cons package rest ih => exact unprobing_orFault fun _ => ih

theorem Propagates.relays {scope : Scope} {r : Recipe α} (h : r.Propagates scope) : r.Relays := by
  induction r with
  | done _ => trivial
  | prev name next ih => exact ⟨h.1, fun a => ih _ (h.2 a)⟩
  | final name next ih => exact ⟨h.1, fun a => ih _ (h.2 a)⟩
  | hasPrev name next ih => exact fun b => ih b (h b)
  | remark text next ih => exact ih h

end Recipe

def Unprobing (o : Overlay α) : Prop := o.Each fun _ r => r.Unprobing

namespace Problem

variable {p : Problem α} {base : NameMap α} (hgrow : ∀ name a, p.base.get? name = some a → base.get? name = some a)

/-! ### What a larger base shows -/

theorem stored?_grown (key : Key) : { p with base }.stored? key = p.stored? key := rfl

theorem binding?_grown (key : Key) : { p with base }.binding? key = p.binding? key := rfl

include hgrow in
theorem sight_grown {name : String} {height : Nat} (h : p.sight name height ≠ .absent) :
    { p with base }.sight name height = p.sight name height := by
  induction height with
  | zero =>
    rw [sight_zero] at h
    rw [sight_zero, sight_zero]
    cases hget : p.base.get? name with
    | none => simp [hget] at h
    | some a => simp only [hgrow name a hget]
  | succ height ih =>
    rw [sight_succ] at h
    rw [sight_succ, sight_succ, binding?_grown]
    split
    · rfl
    · rename_i hunbound
      rw [if_neg hunbound] at h
      exact ih h

theorem sight_grown_of_absent {name : String} {height : Nat} (h : p.sight name height = .absent) :
    { p with base }.sight name height = match base.get? name with | some a => .given a | none => .absent := by
  induction height with
  | zero => rfl
  | succ height ih =>
    rw [sight_succ] at h
    split at h
    · simp at h
    · rename_i hunbound
      rw [sight_succ, binding?_grown, if_neg hunbound]
      exact ih h

theorem lookupFinal_grown_of_new {name : String} (hnew : name ∉ p.names) (hname : name ∈ { p with base }.names) :
    ∃ a, base.get? name = some a ∧ ∀ state, { p with base }.lookupFinal name state = (.ok a, state) := by
  rw [mem_names_iff, defined_eq_true_iff, not_not] at hnew
  have hsight : { p with base }.sight name p.layers.length = _ := sight_grown_of_absent hnew
  rw [mem_names_iff, defined_eq_true_iff] at hname
  cases hget : base.get? name with
  | none =>
    rw [hget] at hsight
    exact absurd hsight hname
  | some a =>
    rw [hget] at hsight
    refine ⟨a, rfl, fun state => ?_⟩
    rw [lookupFinal, lookup_eq_sight, hsight]

include hgrow in
theorem mem_names_grown {name : String} (h : name ∈ p.names) : name ∈ { p with base }.names := by
  rw [mem_names_iff, defined_eq_true_iff] at h ⊢
  have hsight : { p with base }.sight name p.layers.length = _ := sight_grown hgrow h
  exact fun habsent => h (hsight.symm.trans habsent)

include hgrow in
/-- Among the names of a larger base the old ones stand in their old order. -/
theorem filter_names_grown : { p with base }.names.filter (· ∈ p.names) = p.names := by
  refine (NameMap.names_filter _ _).symm.trans (NameMap.names_eq_of_mem_iff fun name => ?_)
  rw [NameMap.names_filter, List.mem_filter]
  exact ⟨fun h => of_decide_eq_true h.2, fun h => ⟨mem_names_grown hgrow h, decide_eq_true h⟩⟩

/-! ### The same steps -/

section Run

variable {force force' : Key → Step α α}
  (hforce : ∀ {key state a after}, force key state = (.ok a, after) → force' key state = (.ok a, after))

include hgrow hforce

theorem lookup_grown {name : String} {height : Nat} {requester : String} {state after : State α} {a : α}
    (h : p.lookup force name height requester state = (.ok a, after)) :
    { p with base }.lookup force' name height requester state = (.ok a, after) := by
  rw [lookup_eq_sight] at h
  have hseen : p.sight name height ≠ .absent := by
    intro habsent
    simp [habsent] at h
  rw [lookup_eq_sight, sight_grown hgrow hseen]
  cases hsight : p.sight name height with
  | bound key =>
    rw [hsight] at h
    exact hforce h
  | given b =>
    rw [hsight] at h
    exact h
  | absent => exact absurd hsight hseen

/-- A look-up and what follows it, for either kind of look-up. -/
theorem ask_grown {scope : Scope} {name : String} {height : Nat} {next : Except Fault α → Recipe α}
    (hfault : ∀ e, next (.error e) = .fault e) {state after : State α} {a : α}
    (hnext : ∀ b between, p.run force scope (next (.ok b)) between = (.ok a, after) →
      { p with base }.run force' scope (next (.ok b)) between = (.ok a, after))
    (h : p.run force scope (next (p.lookup force name height scope.frame state).1)
      (p.lookup force name height scope.frame state).2 = (.ok a, after)) :
    { p with base }.run force' scope (next ({ p with base }.lookup force' name height scope.frame state).1)
      ({ p with base }.lookup force' name height scope.frame state).2 = (.ok a, after) := by
  rcases hlookup : p.lookup force name height scope.frame state with ⟨answer, between⟩
  rw [hlookup] at h
  cases answer with
  | error e =>
    simp [hfault, Recipe.fault, run] at h
  | ok b =>
    rw [lookup_grown hgrow hforce hlookup]
    exact hnext b between h

theorem run_grown {scope : Scope} {r : Recipe α} (hrelays : r.Relays) (hprobes : r.Unprobing) {state after : State α} {a : α}
    (h : p.run force scope r state = (.ok a, after)) : { p with base }.run force' scope r state = (.ok a, after) := by
  induction r generalizing state with
  | done result => exact h
  | remark text next ih => exact ih hrelays hprobes h
  | hasPrev name next => exact hprobes.elim
  | prev name next ih =>
    exact ask_grown hgrow hforce hrelays.1 (fun b _ hrun => ih _ (hrelays.2 b) (hprobes _) hrun) h
  | final name next ih =>
    exact ask_grown hgrow hforce hrelays.1 (fun b _ hrun => ih _ (hrelays.2 b) (hprobes _) hrun) h

end Run

section Solve

variable (hrelays : p.Relays)
  (hprobes : ∀ key binding, p.stored? key = some binding → (binding.recipe (p.scope key)).Unprobing)

include hgrow hrelays hprobes

theorem force_grown {room : Nat} {key : Key} {state after : State α} {a : α}
    (h : p.force room key state = (.ok a, after)) : { p with base }.force room key state = (.ok a, after) := by
  induction room using Nat.strongRecOn generalizing key state after a with
  | ind room ih =>
    obtain ⟨b, hfound, heq⟩ | ⟨e, -, heq⟩ | ⟨inner, binding, rfl, hnew, hfree, hbinding⟩ := p.force_cases room key state
    · rw [force_of_found? hfound]
      exact heq.symm.trans h
    · simp [heq] at h
    · rw [force_of_stored? hnew hfree hbinding] at h
      rcases hrun : p.run (p.force inner) (p.scope key) (binding.recipe (p.scope key)) (state.push key) with ⟨result, inside⟩
      rw [hrun] at h
      obtain ⟨rfl, rfl⟩ := Prod.mk.inj h
      have hsame := run_grown hgrow (ih inner (Nat.lt_succ_self inner)) (hrelays key binding hbinding)
        (hprobes key binding hbinding) hrun
      rw [force_of_stored? hnew hfree ((stored?_grown key).trans hbinding)]
      exact congrArg (fun outcome => (outcome.1, outcome.2.pop key outcome.1)) hsame

theorem lookupFinal_grown {name : String} {state after : State α} {a : α} (h : p.lookupFinal name state = (.ok a, after)) :
    { p with base }.lookupFinal name state = (.ok a, after) :=
  lookup_grown hgrow (force_grown hgrow hrelays hprobes) h

/-- Names are looked up among new ones, which the larger base has the values of. -/
theorem collect_grown {names : List String} (hnames : ∀ name ∈ names, name ∈ { p with base }.names) {state after : State α}
    {found : List (String × α)} (h : p.collect (names.filter (· ∈ p.names)) state = (.ok found, after)) :
    ∃ more, { p with base }.collect names state = (.ok more, after) ∧
      ∀ name a, (name, a) ∈ more ↔ (name, a) ∈ found ∨ name ∈ names ∧ name ∉ p.names ∧ base.get? name = some a := by
  induction names generalizing state found with
  | nil =>
    obtain ⟨rfl, rfl⟩ : found = [] ∧ after = state := by simpa [collect, eq_comm] using h
    exact ⟨[], rfl, by simp⟩
  | cons name rest ih =>
    have hrest : ∀ other ∈ rest, other ∈ { p with base }.names :=
      fun other hother => hnames other (List.mem_cons_of_mem _ hother)
    by_cases hold : name ∈ p.names
    · rw [List.filter_cons_of_pos (by simpa using hold)] at h
      obtain ⟨a, between, tail, hlookup, hcollect, rfl⟩ := p.collect_cons_eq_ok_iff.1 h
      obtain ⟨more, hmore, hmem⟩ := ih hrest hcollect
      refine ⟨(name, a) :: more, ?_, fun other b => ?_⟩
      · exact (collect_cons_eq_ok_iff _).2 ⟨a, between, more, lookupFinal_grown hgrow hrelays hprobes hlookup, hmore, rfl⟩
      · by_cases hother : other = name <;> simp [hmem, hother, hold]
    · rw [List.filter_cons_of_neg (by simpa using hold)] at h
      obtain ⟨a, hget, hlookup⟩ := lookupFinal_grown_of_new hold (hnames name List.mem_cons_self)
      obtain ⟨more, hmore, hmem⟩ := ih hrest h
      refine ⟨(name, a) :: more, ?_, fun other b => ?_⟩
      · exact (collect_cons_eq_ok_iff _).2 ⟨a, state, more, hlookup state, hmore, rfl⟩
      · by_cases hother : other = name
        · subst hother
          simp only [List.mem_cons, Prod.mk.injEq, true_and, hmem, true_or, hold, not_false_eq_true, hget, Option.some.injEq]
          grind
        · simp [hmem, hother]

theorem solve_grown {solution : NameMap α} (h : p.solve.1 = .ok solution) :
    ∃ solution', { p with base }.solve.1 = .ok solution' ∧
      ∀ name a, solution'.get? name = some a ↔ solution.get? name = some a ∨ name ∉ p.names ∧ base.get? name = some a := by
  obtain ⟨found, after, hcollect, hfound⟩ := p.exists_collect_of_solve_eq_ok h
  rw [← filter_names_grown hgrow] at hcollect
  obtain ⟨more, hmore, hmem⟩ := collect_grown hgrow hrelays hprobes (fun _ hname => hname) hcollect
  obtain ⟨solution', hsolve, hsolution'⟩ := exists_solution_of_collect _ hmore
  refine ⟨solution', hsolve, fun name a => ?_⟩
  rw [hsolution', hmem, hfound]
  refine or_congr_right ⟨fun hnew => hnew.2, fun hnew => ⟨?_, hnew⟩⟩
  rw [mem_names_iff_exists, NameMap.mem_names_iff]
  exact .inl (Option.isSome_of_eq_some hnew.2)

end Solve

end Problem

/-! ### Overlays written as data -/

theorem Override.unprobing_recipe (o : Override) (scope : Scope) : (o.recipe scope).Unprobing := by
  have hvalue : ∀ a : Artifact, (Recipe.value a).Unprobing := fun _ => trivial
  have hinputs : ∀ a, (o.withInputs a).Unprobing := fun a => Recipe.unprobing_demandAll (hvalue a) _
  unfold Override.recipe
  split
  · exact Recipe.unprobing_orFault hvalue
  · split
    · exact Recipe.unprobing_orFault fun _ => hinputs _
    · split
      · trivial
      · exact hinputs _

/-- A chain that is solved over a base is solved over every larger base: what it had stays, and what is new in the base comes
with its value there. Overlays that are written as data are of this kind. -/
theorem larger_base_keeps_solution :
    (∀ {α : Type} (chain : List (Overlay α)) (platform : Platform) (base larger solution : NameMap α),
      (∀ o ∈ chain, o.Relays ∧ o.Unprobing) → (∀ name a, base.get? name = some a → larger.get? name = some a) →
      apply chain platform base = .ok solution →
      ∃ solution', apply chain platform larger = .ok solution' ∧
        (∀ name a, solution.get? name = some a → solution'.get? name = some a) ∧
        ∀ name, name ∉ solution.names → solution'.get? name = larger.get? name) ∧
    ∀ sheet : Sheet, sheet.overlay.Relays ∧ sheet.overlay.Unprobing := by
  refine ⟨?_, fun sheet => ⟨sheet.each_overlay fun o scope => (o.propagates_recipe scope).relays,
    sheet.each_overlay Override.unprobing_recipe⟩⟩
  intro α chain platform base larger solution hchain hgrow hsolved
  let p : Problem α := ⟨platform, base, stack chain⟩
  have hrelays : p.Relays := Problem.relays_stack (fun o ho => (hchain o ho).1) platform base
  have hprobes : ∀ key binding, p.stored? key = some binding → (binding.recipe (p.scope key)).Unprobing :=
    fun key binding hbinding => Problem.each_stack (fun o ho => (hchain o ho).2) hbinding _
  obtain ⟨solution', hsolve, hget⟩ := Problem.solve_grown hgrow hrelays hprobes hsolved
  refine ⟨solution', hsolve, fun name a hold => (hget name a).2 (.inl hold), fun name hnew => Option.ext fun a => ?_⟩
  have hold : solution.get? name ≠ some a := fun hold => hnew ((NameMap.mem_names_iff _ _).2 (Option.isSome_of_eq_some hold))
  rw [p.mem_names_of_solve_eq_ok hsolved] at hnew
  simp [hget, hold, hnew]

theorem relays_and_unprobing_crossing : ∀ o ∈ crossing, o.Relays ∧ o.Unprobing := by
  have hvalue : ∀ n : Nat, (Recipe.value n).Unprobing := fun _ => trivial
  intro o ho
  have hrelays : o.Relays :=
    fun layer hlayer name binding hget scope => (propagates_crossing o ho layer hlayer name binding hget scope).relays
  refine ⟨hrelays, ?_⟩
  simp only [crossing, List.mem_cons, List.not_mem_nil, or_false] at ho
  rcases ho with rfl | rfl | rfl
  · refine ((each_new _ "a").bindWith (fun _ => hvalue 1) "x").bindWith (fun _ => ?_) "y"
    exact Recipe.unprobing_orFault fun z => hvalue (z + 1)
  · refine ((each_new _ "b").bindWith (fun _ => ?_) "x").bindWith (fun _ => hvalue 5) "z"
    exact Recipe.unprobing_orFault fun x => hvalue (x * 10)
  · refine ((each_new _ "c").bindWith (fun _ => ?_) "z").bindWith (fun _ => ?_) "w"
    · exact Recipe.unprobing_orFault fun z => Recipe.unprobing_orFault fun x => hvalue (z + x)
    · exact Recipe.unprobing_orFault fun y => Recipe.unprobing_orFault fun x => hvalue (y + x)

/-- A base with an entry below the bindings of its name, and with one that no overlay binds. -/
theorem crossing_keeps_solution :
    apply crossing ⟨"x86_64-linux"⟩ (.ofList [("x", 0)]) = .ok (.ofList [("w", 26), ("x", 10), ("y", 16), ("z", 15)]) ∧
    ∃ solution, apply crossing ⟨"x86_64-linux"⟩ (.ofList [("x", 0), ("z", 100), ("extra", 7)]) = .ok solution ∧
      solution.get? "z" = some 15 ∧ solution.get? "extra" = some 7 := by
  have hsolved : apply crossing ⟨"x86_64-linux"⟩ (.ofList [("x", 0)]) =
      .ok (.ofList [("w", 26), ("x", 10), ("y", 16), ("z", 15)]) := by decide +kernel
  refine ⟨hsolved, ?_⟩
  have hgrow : ∀ name a, (NameMap.ofList [("x", 0)]).get? name = some a →
      (NameMap.ofList [("x", 0), ("z", 100), ("extra", 7)]).get? name = some a := by
    intro name a hget
    obtain ⟨rfl, rfl⟩ : name = "x" ∧ a = 0 := by simpa using NameMap.mem_of_get?_ofList hget
    decide +kernel
  obtain ⟨solution, hlarger, hkept, hnew⟩ :=
    larger_base_keeps_solution.1 crossing _ _ _ _ relays_and_unprobing_crossing hgrow hsolved
  refine ⟨solution, hlarger, hkept "z" 15 (by decide +kernel), ?_⟩
  rw [hnew "extra" (by decide +kernel)]
  decide +kernel

end HostFleet.Overlay
