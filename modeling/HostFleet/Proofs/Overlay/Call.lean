import HostFleet.Proofs.Overlay.Memo

/-!
# What a call leaves behind

Whoever looks a package up goes on in the state that the look-up ends in, whether it ended in a value or in a fault. Here
the states before and after a call are compared, for recipes of any kind, with any room and from any state: the same
bindings are running, every value found before is still found, and no running binding was given a value meanwhile. The last
part carries the induction. A value is kept at the moment its binding stops running, so a call inside cannot have kept one
for the same binding, and no value is ever written over.
-/

namespace HostFleet.Overlay

variable {α : Type}

namespace State

theorem found?_pop_ok (state : State α) (key other : Key) (a : α) :
    (state.pop key (.ok a)).found? other = if key = other then some a else state.found? other := by
  by_cases hkey : key = other
  · simp [found?, pop, hkey]
  · simp [found?, pop, hkey]

theorem found?_pop_of_ne {key other : Key} (hne : key ≠ other) (state : State α) (result : Except Fault α) :
    (state.pop key result).found? other = state.found? other := by
  cases result with
  | error e => rfl
  | ok a => rw [found?_pop_ok, if_neg hne]

/-- How the state that a call ends in stands to the one it began in. -/
structure Resumes (before after : State α) : Prop where
  running : after.running = before.running
  found : ∀ {key a}, before.found? key = some a → after.found? key = some a
  unfound : ∀ {key}, key ∈ before.running → before.found? key = none → after.found? key = none

theorem Resumes.refl (state : State α) : state.Resumes state :=
  ⟨rfl, fun h => h, fun _ h => h⟩

theorem Resumes.trans {first second third : State α} (h : first.Resumes second) (h' : second.Resumes third) :
    first.Resumes third where
  running := h'.running.trans h.running
  found hfound := h'.found (h.found hfound)
  unfound hmem hnone := h'.unfound (h.running ▸ hmem) (h.unfound hmem hnone)

theorem resumes_remark (state : State α) (text : String) : state.Resumes (state.remark text) :=
  ⟨rfl, fun h => h, fun _ h => h⟩

/-- What holds around the run of a recipe holds around the evaluation of its binding. -/
theorem Resumes.enclose {state inner : State α} {key : Key} (hnew : state.found? key = none) (hfree : key ∉ state.running)
    (h : (state.push key).Resumes inner) (result : Except Fault α) : state.Resumes (inner.pop key result) where
  running := by
    have hrunning : inner.running = key :: state.running := h.running
    simp [pop, hrunning]
  found := by
    intro other a hfound
    have hne : key ≠ other := by
      intro heq
      rw [← heq, hnew] at hfound
      simp at hfound
    rw [found?_pop_of_ne hne]
    exact h.found hfound
  unfound := by
    intro other hmem hnone
    have hne : key ≠ other := fun heq => hfree (heq ▸ hmem)
    rw [found?_pop_of_ne hne]
    exact h.unfound (List.mem_cons_of_mem key hmem) hnone

end State

namespace Problem

variable (p : Problem α)

/-- An evaluation is over at once and changes nothing, or it runs the recipe of a binding that has no value and does not
run yet. -/
theorem force_cases (room : Nat) (key : Key) (state : State α) :
    (∃ a, state.found? key = some a ∧ p.force room key state = (.ok a, state)) ∨
    (∃ e, state.found? key = none ∧ p.force room key state = (.error e, state)) ∨
    ∃ inner binding, room = inner + 1 ∧ state.found? key = none ∧ key ∉ state.running ∧ p.stored? key = some binding := by
  cases hfound : state.found? key with
  | some a => exact .inl ⟨a, rfl, force_of_found? hfound room⟩
  | none =>
    by_cases hcycle : key ∈ state.running
    · exact .inr (.inl ⟨_, rfl, force_of_mem_running hfound hcycle room⟩)
    cases hbinding : p.stored? key with
    | none => exact .inr (.inl ⟨_, rfl, force_of_stored?_eq_none hfound hcycle hbinding room⟩)
    | some binding =>
      cases room with
      | zero =>
        refine .inr (.inl ⟨.missing key.name "<solver>", rfl, ?_⟩)
        unfold force
        simp [hfound, hcycle, hbinding]
      | succ inner => exact .inr (.inr ⟨inner, binding, rfl, rfl, hcycle, rfl⟩)

section Run

variable {p} {force : Key → Step α α} (hforce : ∀ (key : Key) (state : State α), state.Resumes (force key state).2)

include hforce

theorem lookup_resumes (name : String) (height : Nat) (requester : String) (state : State α) :
    state.Resumes (p.lookup force name height requester state).2 := by
  rw [lookup_eq_sight]
  cases p.sight name height with
  | bound key => exact hforce key state
  | given a => exact .refl state
  | absent => exact .refl state

theorem run_resumes (scope : Scope) (r : Recipe α) (state : State α) : state.Resumes (p.run force scope r state).2 := by
  induction r generalizing state with
  | done result => exact .refl state
  | remark text next ih => exact (state.resumes_remark text).trans (ih _)
  | hasPrev name next ih => exact ih _ state
  | prev name next ih => exact (lookup_resumes hforce name scope.level scope.frame state).trans (ih _ _)
  | final name next ih => exact (lookup_resumes hforce name p.layers.length scope.frame state).trans (ih _ _)

end Run

theorem force_resumes (room : Nat) (key : Key) (state : State α) : state.Resumes (p.force room key state).2 := by
  induction room generalizing key state with
  | zero =>
    obtain ⟨a, -, heq⟩ | ⟨e, -, heq⟩ | ⟨inner, binding, hroom, -⟩ := p.force_cases 0 key state
    · exact heq ▸ .refl state
    · exact heq ▸ .refl state
    · simp at hroom
  | succ room ih =>
    obtain ⟨a, -, heq⟩ | ⟨e, -, heq⟩ | ⟨inner, binding, hroom, hnew, hfree, hbinding⟩ := p.force_cases (room + 1) key state
    · exact heq ▸ .refl state
    · exact heq ▸ .refl state
    · rw [force_of_stored? hnew hfree hbinding]
      exact (run_resumes ih _ _ _).enclose hnew hfree _

theorem lookupFinal_resumes (name : String) (state : State α) : state.Resumes (p.lookupFinal name state).2 :=
  lookup_resumes (p.force_resumes p.room) _ _ _ _

/-- A binding whose evaluation ends in a fault has no value. -/
theorem found?_of_force_eq_error {room : Nat} {key : Key} {state : State α} {e : Fault}
    (h : (p.force room key state).1 = .error e) : (p.force room key state).2.found? key = none := by
  obtain ⟨a, -, heq⟩ | ⟨e', hnew, heq⟩ | ⟨inner, binding, rfl, hnew, hfree, hbinding⟩ := p.force_cases room key state
  · simp [heq] at h
  · rw [heq]
    exact hnew
  · rw [force_of_stored? hnew hfree hbinding] at h ⊢
    -- the key is running all along, so nothing inside can have kept a value for it
    have hrun : (state.push key).Resumes
        (p.run (p.force inner) (p.scope key) (binding.recipe (p.scope key)) (state.push key)).2 :=
      run_resumes (p.force_resumes inner) _ _ _
    have hopen := hrun.unfound List.mem_cons_self hnew
    dsimp only at h ⊢
    rw [h]
    exact hopen

/-! ### Names looked up one after another -/

theorem collect_cons_eq_ok_iff {name : String} {rest : List String} {state after : State α} {found : List (String × α)} :
    p.collect (name :: rest) state = (.ok found, after) ↔
      ∃ a between more, p.lookupFinal name state = (.ok a, between) ∧ p.collect rest between = (.ok more, after) ∧
        found = (name, a) :: more := by
  rw [collect]
  rcases p.lookupFinal name state with ⟨result, between⟩
  cases result with
  | error e => simp
  | ok a =>
    dsimp only
    rcases hrest : p.collect rest between with ⟨more, last⟩
    cases more with
    | error e =>
      refine iff_of_false (by simp) ?_
      intro h
      obtain ⟨a', between', more', hlookup, hcollect, -⟩ := h
      obtain ⟨-, rfl⟩ := Prod.mk.inj hlookup
      simp [hrest] at hcollect
    | ok more =>
      constructor
      · intro h
        obtain ⟨hfound, rfl⟩ := Prod.mk.inj h
        exact ⟨a, between, more, rfl, hrest, (Except.ok.inj hfound).symm⟩
      · intro h
        obtain ⟨a', between', more', hlookup, hcollect, hfound⟩ := h
        obtain ⟨hvalue, rfl⟩ := Prod.mk.inj hlookup
        obtain ⟨hmore, rfl⟩ := Prod.mk.inj (hrest.symm.trans hcollect)
        rw [hfound, Except.ok.inj hvalue, Except.ok.inj hmore]

theorem names_of_collect {names : List String} {state after : State α} {found : List (String × α)}
    (h : p.collect names state = (.ok found, after)) : found.map Prod.fst = names := by
  induction names generalizing state found with
  | nil =>
    obtain rfl := Except.ok.inj (Prod.mk.inj h).1
    rfl
  | cons name rest ih =>
    obtain ⟨a, between, more, -, hrest, rfl⟩ := p.collect_cons_eq_ok_iff.1 h
    rw [List.map_cons, ih hrest]

theorem exists_solution_of_collect {found : List (String × α)} {after : State α}
    (h : p.collect p.names {} = (.ok found, after)) :
    ∃ solution, p.solve.1 = .ok solution ∧ ∀ name a, solution.get? name = some a ↔ (name, a) ∈ found := by
  have hnames : (found.map Prod.fst).Nodup := p.names_of_collect h ▸ NameMap.nodup_names _
  refine ⟨NameMap.ofList found, ?_, fun _ _ => NameMap.get?_ofList_eq_some_iff hnames⟩
  rw [solve, h]
  rfl

/-- What a solved problem has under a name is what the look-up of the name found. -/
theorem exists_collect_of_solve_eq_ok {solution : NameMap α} (h : p.solve.1 = .ok solution) :
    ∃ found after, p.collect p.names {} = (.ok found, after) ∧
      ∀ name a, solution.get? name = some a ↔ (name, a) ∈ found := by
  rcases hcollect : p.collect p.names {} with ⟨result, after⟩
  cases result with
  | error e =>
    rw [solve, hcollect] at h
    simp [Except.map] at h
  | ok found =>
    obtain ⟨solution', hsolve, hfound⟩ := p.exists_solution_of_collect hcollect
    obtain rfl := Except.ok.inj (hsolve.symm.trans h)
    exact ⟨found, after, rfl, hfound⟩

theorem mem_names_of_solve_eq_ok {solution : NameMap α} (h : p.solve.1 = .ok solution) {name : String} :
    name ∈ solution.names ↔ name ∈ p.names := by
  obtain ⟨found, after, hcollect, hfound⟩ := p.exists_collect_of_solve_eq_ok h
  rw [← p.names_of_collect hcollect, NameMap.mem_names_iff, Option.isSome_iff_exists]
  simp [hfound]

end Problem

end HostFleet.Overlay
