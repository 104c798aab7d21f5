import HostFleet.Proofs.Overlay.Balance

/-!
# Guards can be erased

On one platform a guard decides whether a binding is there, and nothing else. `eraseGuards` leaves of an overlay what is there:
the bindings that the platform accepts, without their guards. Solving what is left takes the same steps as solving the whole,
whatever the recipes ask.

The solver reads little of a problem, and `Problem.Alike` says what: the base, how many layers there are, and where each
binding of the platform stands and how its recipe goes. The list of names, the topmost binding of a name and the answer to
`hasPrev` are computed in different ways, and each of them is a function of that. The evaluation itself would take a binding
of another platform as well, and there the two problems differ; but a look-up never comes upon one.
-/

namespace HostFleet.Overlay

variable {α : Type}

def Binding.unguarded (binding : Binding α) : Binding α := { recipe := binding.recipe }

/-- What is left of a layer on a platform: the bindings it accepts, without their guards. -/
def Layer.eraseGuards (platform : Platform) (layer : Layer α) : Layer α :=
  { layer with bindings := layer.bindings.view (·.accepts platform) Binding.unguarded }

def eraseGuards (platform : Platform) (o : Overlay α) : Overlay α :=
  { o with lower := o.lower.map (Layer.eraseGuards platform), top := o.top.eraseGuards platform }

theorem layers_eraseGuards (platform : Platform) (o : Overlay α) :
    (o.eraseGuards platform).layers = o.layers.map (Layer.eraseGuards platform) := by
  simp [layers, eraseGuards]

theorem stack_map_eraseGuards (platform : Platform) (chain : List (Overlay α)) :
    stack (chain.map (eraseGuards platform)) = (stack chain).map (Layer.eraseGuards platform) := by
  induction chain with
  | nil => rfl
  | cons o rest ih => rw [List.map_cons, stack_cons, stack_cons, layers_eraseGuards, ih, List.map_append]

namespace Problem

/-- All that the solver reads of a problem is the same in both. -/
structure Alike (p p' : Problem α) : Prop where
  base : p.base = p'.base
  length : p.layers.length = p'.layers.length
  scope : ∀ key, p.scope key = p'.scope key
  recipe : ∀ key, (p.binding? key).map Binding.recipe = (p'.binding? key).map Binding.recipe

namespace Alike

variable {p p' : Problem α} (h : Alike p p')

include h

/-! ### What is visible -/

theorem isSome_binding?_eq (key : Key) : (p.binding? key).isSome = (p'.binding? key).isSome := by
  rw [← Option.isSome_map, h.recipe, Option.isSome_map]

theorem sight_eq (name : String) (height : Nat) : p.sight name height = p'.sight name height := by
  induction height with
  | zero => rw [sight_zero, sight_zero, h.base]
  | succ below ih => rw [sight_succ, sight_succ, h.isSome_binding?_eq, ih]

theorem defined_eq (height : Nat) (name : String) : p.defined height name = p'.defined height name := by
  rw [Bool.eq_iff_iff, p.defined_eq_true_iff, p'.defined_eq_true_iff, h.sight_eq]

theorem names_eq : p.names = p'.names := by
  refine NameMap.names_eq_of_mem_iff fun name => ?_
  change name ∈ p.names ↔ name ∈ p'.names
  rw [p.mem_names_iff, p'.mem_names_iff, h.length, h.defined_eq]

/-! ### The same steps -/

theorem cyclePath_eq (running : List Key) (key : Key) : p.cyclePath running key = p'.cyclePath running key := by
  simp only [cyclePath, h.scope]

section Steps

variable {running : List Key} {force force' : Key → Step α α}
  (hforce : ∀ key state, (p.binding? key).isSome → state.running = running → force key state = force' key state)

include hforce

/-- Look-ups agree as soon as evaluations agree on bindings of the platform: they evaluate nothing else. -/
theorem lookup_eq (name : String) (height : Nat) (requester : String) {state : State α} (hrunning : state.running = running) :
    p.lookup force name height requester state = p'.lookup force' name height requester state := by
  rw [lookup_eq_sight, lookup_eq_sight, ← h.sight_eq]
  cases hsight : p.sight name height with
  | bound key => exact hforce key state (p.sight_eq_bound hsight).2.2 hrunning
  | given a => rfl
  | absent => rfl

theorem run_eq (hresumes : ∀ key (state : State α), state.Resumes (force key state).2) (scope : Scope) (r : Recipe α) {state : State α}
    (hrunning : state.running = running) : p.run force scope r state = p'.run force' scope r state := by
  induction r generalizing state with
  | done result => rfl
  | remark text next ih => exact ih hrunning
  | hasPrev name next ih =>
    rw [run, run, h.defined_eq]
    exact ih _ hrunning
  | prev name next ih =>
    have hafter : (p.lookup force name scope.level scope.frame state).2.running = running :=
      (lookup_resumes hresumes _ _ _ _).running.trans hrunning
    simp only [run]
    rw [← h.lookup_eq hforce name scope.level scope.frame hrunning]
    exact ih _ hafter
  | final name next ih =>
    have hafter : (p.lookup force name p.layers.length scope.frame state).2.running = running :=
      (lookup_resumes hresumes _ _ _ _).running.trans hrunning
    simp only [run]
    rw [← h.length, ← h.lookup_eq hforce name p.layers.length scope.frame hrunning]
    exact ih _ hafter

end Steps

/-- A binding of the platform is evaluated alike in both, with any room that is enough there. The rooms may differ, as a
problem has room for the bindings of other platforms too. -/
theorem force_eq {room room' : Nat} {key : Key} {state : State α} (hkey : (p.binding? key).isSome)
    (hroom : p.free state.running ≤ room) (hroom' : p'.free state.running ≤ room') :
    p.force room key state = p'.force room' key state := by
  induction room using Nat.strongRecOn generalizing room' key state with
  | ind room ih =>
    cases hfound : state.found? key with
    | some a => rw [force_of_found? hfound, force_of_found? hfound]
    | none =>
      by_cases hcycle : key ∈ state.running
      · rw [force_of_mem_running hfound hcycle, force_of_mem_running hfound hcycle, h.cyclePath_eq]
      obtain ⟨binding, hbinding⟩ := Option.isSome_iff_exists.1 hkey
      have hrecipe := h.recipe key
      rw [hbinding] at hrecipe
      obtain ⟨binding', hbinding', hsame⟩ := Option.map_eq_some_iff.1 hrecipe.symm
      have hstored := p.stored?_of_binding? hbinding
      have hstored' := p'.stored?_of_binding? hbinding'
      have hless := p.free_cons_lt (Option.isSome_of_eq_some hstored) hcycle
      have hless' := p'.free_cons_lt (Option.isSome_of_eq_some hstored') hcycle
      obtain ⟨inner, rfl⟩ : ∃ inner, room = inner + 1 := Nat.exists_eq_add_one_of_ne_zero (by omega)
      obtain ⟨inner', rfl⟩ : ∃ inner', room' = inner' + 1 := Nat.exists_eq_add_one_of_ne_zero (by omega)
      have hforce : ∀ found (after : State α), (p.binding? found).isSome → after.running = key :: state.running →
          p.force inner found after = p'.force inner' found after := by
        intro found after hbound hrunning
        rw [← hrunning] at hless hless'
        exact ih inner (Nat.lt_succ_self inner) hbound (by omega) (by omega)
      rw [force_of_stored? hfound hcycle hstored, force_of_stored? hfound hcycle hstored', h.scope, hsame,
        h.run_eq hforce (p.force_resumes inner) _ _ rfl]

/-! ### The same solution -/

theorem lookupFinal_eq (name : String) : p.lookupFinal name = p'.lookupFinal name := by
  funext state
  rw [lookupFinal, lookupFinal, ← h.length]
  exact h.lookup_eq (fun key after hkey _ => h.force_eq hkey (p.free_le_room _) (p'.free_le_room _)) _ _ _ rfl

theorem collect_eq (names : List String) : p.collect names = p'.collect names := by
  induction names with
  | nil => rfl
  | cons name rest ih =>
    funext state
    rw [collect, collect, h.lookupFinal_eq, ih]

/-- Problems that are alike have the same result, and the solver knows the same in the end. -/
theorem solve_eq : p.solve = p'.solve := by
  rw [solve, solve, h.names_eq, h.collect_eq]

end Alike

/-! ### Erased guards -/

section Erased

variable (platform : Platform) (base : NameMap α) (layers : List (Layer α))

theorem binding?_eraseGuards (key : Key) :
    (Problem.mk platform base (layers.map (Layer.eraseGuards platform))).binding? key =
      ((Problem.mk platform base layers).binding? key).map Binding.unguarded := by
  simp only [binding?, stored?, List.getElem?_map]
  cases layers[key.layer]? with
  | none => rfl
  | some layer =>
    simp only [Option.map_some, Option.bind_eq_bind, Option.bind_some, Layer.eraseGuards, NameMap.get?_view]
    cases layer.bindings.get? key.name with
    | none => rfl
    | some binding => by_cases haccepts : binding.accepts platform <;> simp [haccepts, Binding.unguarded, Option.filter]

theorem alike_eraseGuards :
    (Problem.mk platform base (layers.map (Layer.eraseGuards platform))).Alike ⟨platform, base, layers⟩ where
  base := rfl
  length := List.length_map _
  scope key := by
    simp only [scope, origin, List.getElem?_map, Option.map_map]
    rfl
  recipe key := by
    rw [binding?_eraseGuards, Option.map_map]
    rfl

end Erased

end Problem

/-- Guards can be erased. The chain that is left holds, layer by layer and name by name, the bindings that the platform accepts,
with their recipes and without their guards. It is solved on the platform as the chain itself: the result and all that the
solver knows in the end are the same, the starts of recipes in their order included. -/
theorem erased_guards_change_nothing (chain : List (Overlay α)) (platform : Platform) (base : NameMap α) :
    let left := chain.map (eraseGuards platform)
    (∀ layer : Nat, ((stack left)[layer]?).map Layer.origin = ((stack chain)[layer]?).map Layer.origin ∧
      ∀ name, (((stack left)[layer]?).bind fun l => l.bindings.get? name) =
        ((((stack chain)[layer]?).bind fun l => l.bindings.get? name).filter (·.accepts platform)).map fun binding =>
          { recipe := binding.recipe, accepts := fun _ => true }) ∧
    (Problem.mk platform base (stack left)).solve = (Problem.mk platform base (stack chain)).solve ∧
    apply left platform base = apply chain platform base := by
  intro left
  have hstack : stack left = (stack chain).map (Layer.eraseGuards platform) := stack_map_eraseGuards platform chain
  have hsolve : (Problem.mk platform base (stack left)).solve = (Problem.mk platform base (stack chain)).solve := by
    rw [hstack]
    exact (Problem.alike_eraseGuards platform base (stack chain)).solve_eq
  refine ⟨fun layer => ⟨?_, fun name => ?_⟩, hsolve, congrArg Prod.fst hsolve⟩
  · rw [hstack, List.getElem?_map, Option.map_map]
    rfl
  · rw [hstack, List.getElem?_map]
    cases (stack chain)[layer]? with
    | none => rfl
    | some l =>
      simp only [Option.map_some, Option.bind_some, Layer.eraseGuards, NameMap.get?_view]
      rfl

end HostFleet.Overlay
