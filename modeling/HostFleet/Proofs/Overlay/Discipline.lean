import HostFleet.Proofs.Outcome
import HostFleet.Proofs.Overlay.Memo

/-!
# What a run keeps

The solver works on recipes of any kind, also on those that recover from a fault. What holds all along its runs is found
by one induction: a property of states that the solver's own steps keep is kept by every look-up, and a property of
faults that the solver's own faults have and that recipes pass on is had by every fault. Whatever a look-up ends in, the
bindings that are running are those that were running before, and there was room for it.
-/

namespace HostFleet.Overlay

variable {α : Type}

/-- Whatever a recipe is answered with, it ends in an allowed fault unless it was answered with one that is not. -/
def Recipe.Passes (allowed : Fault → Prop) : Recipe α → Prop
  | .done result => ∀ e, result = .error e → allowed e
  | .prev _ next => (∀ a, (next (.ok a)).Passes allowed) ∧ ∀ e, allowed e → (next (.error e)).Passes allowed
  | .final _ next => (∀ a, (next (.ok a)).Passes allowed) ∧ ∀ e, allowed e → (next (.error e)).Passes allowed
  | .hasPrev _ next => ∀ b, (next b).Passes allowed
  | .remark _ next => next.Passes allowed

namespace Problem

/-- The solver's own steps keep a property of states, and the faults it starts with are allowed, as are those that the
recipes add. -/
structure Keeps (p : Problem α) (inv : State α → Prop) (allowed : Fault → Prop) : Prop where
  remark : ∀ {state} text, inv state → inv (state.remark text)
  push : ∀ {state key}, inv state → state.found? key = none → key ∉ state.running → (p.binding? key).isSome →
    inv (state.push key)
  pop : ∀ {state key rest} result, inv state → state.running = key :: rest → inv (state.pop key result)
  cycle : ∀ {state key}, inv state → key ∈ state.running → allowed (.cycle (p.cyclePath state.running key))
  missing : ∀ {key name height}, (p.binding? key).isSome → p.sight name height = .absent →
    allowed (.missing name (p.scope key).frame)
  recipe : ∀ {key binding}, p.binding? key = some binding → (binding.recipe (p.scope key)).Passes allowed

/-- A step ends with the given bindings running, in a state that has a property, and not in a forbidden fault. -/
structure Ends {β : Type} (inv : State α → Prop) (allowed : Fault → Prop) (running : List Key)
    (outcome : Except Fault β × State α) : Prop where
  running : outcome.2.running = running
  inv : inv outcome.2
  allowed : ∀ e, outcome.1 = .error e → allowed e

variable {p : Problem α} {inv : State α → Prop} {allowed : Fault → Prop}

theorem Ends.of_error {β γ : Type} {running : List Key} {e : Fault} {state : State α}
    (h : Ends inv allowed running ((.error e : Except Fault β), state)) :
    Ends inv allowed running ((.error e : Except Fault γ), state) :=
  ⟨h.running, h.inv, fun e' he => h.allowed e' (congrArg Except.error (Except.error.inj he))⟩

theorem lookup_ends {force : Key → Step α α} {running : List Key} {name : String} {height : Nat} {state : State α}
    {requester : String}
    (hforce : ∀ key, (p.binding? key).isSome → Ends inv allowed running (force key state))
    (hmissing : p.sight name height = .absent → allowed (.missing name requester))
    (hinv : inv state) (hrunning : state.running = running) :
    Ends inv allowed running (p.lookup force name height requester state) := by
  rw [lookup_eq_sight]
  cases hsight : p.sight name height with
  | bound key => exact hforce key (p.sight_eq_bound hsight).2.2
  | given a => exact ⟨hrunning, hinv, fun e he => by simp at he⟩
  | absent =>
    refine ⟨hrunning, hinv, fun e he => ?_⟩
    obtain rfl := Except.error.inj he
    exact hmissing hsight

section Run

variable (h : p.Keeps inv allowed) {key : Key} (hkey : (p.binding? key).isSome) {running : List Key}
  {force : Key → Step α α}
  (hforce : ∀ {state : State α}, inv state → state.running = running →
    ∀ found, (p.binding? found).isSome → Ends inv allowed running (force found state))

include h hkey hforce

/-- A look-up and what follows it, for either kind of look-up. -/
theorem ask_ends {name : String} {height : Nat} {next : Except Fault α → Recipe α}
    (hpasses : (∀ a, (next (.ok a)).Passes allowed) ∧ ∀ e, allowed e → (next (.error e)).Passes allowed)
    (hnext : ∀ answer, (next answer).Passes allowed → ∀ {state : State α}, inv state → state.running = running →
      Ends inv allowed running (p.run force (p.scope key) (next answer) state))
    {state : State α} (hinv : inv state) (hrunning : state.running = running) :
    Ends inv allowed running
      (p.run force (p.scope key) (next (p.lookup force name height (p.scope key).frame state).1)
        (p.lookup force name height (p.scope key).frame state).2) := by
  have hlookup : Ends inv allowed running (p.lookup force name height (p.scope key).frame state) :=
    lookup_ends (hforce hinv hrunning) (h.missing hkey) hinv hrunning
  refine hnext _ ?_ hlookup.inv hlookup.running
  cases hanswer : (p.lookup force name height (p.scope key).frame state).1 with
  | ok a => exact hpasses.1 a
  | error e => exact hpasses.2 e (hlookup.allowed e hanswer)

theorem run_ends {r : Recipe α} (hr : r.Passes allowed) {state : State α} (hinv : inv state)
    (hrunning : state.running = running) : Ends inv allowed running (p.run force (p.scope key) r state) := by
  induction r generalizing state with
  | done result => exact ⟨hrunning, hinv, hr⟩
  | remark text next ih => exact ih hr (h.remark text hinv) hrunning
  | hasPrev name next ih => exact ih _ (hr _) hinv hrunning
  | prev name next ih => exact ask_ends h hkey hforce hr (fun answer => ih answer) hinv hrunning
  | final name next ih => exact ask_ends h hkey hforce hr (fun answer => ih answer) hinv hrunning

end Run

/-- Every evaluation of a binding keeps the property and leaves the running bindings as they were. -/
theorem force_ends (h : p.Keeps inv allowed) {room : Nat} {key : Key} (hkey : (p.binding? key).isSome) {state : State α}
    (hinv : inv state) (hroom : p.free state.running ≤ room) :
    Ends inv allowed state.running (p.force room key state) := by
  induction room using Nat.strongRecOn generalizing key state with
  | ind room ih =>
    cases hfound : state.found? key with
    | some a =>
      rw [force_of_found? hfound]
      exact ⟨rfl, hinv, fun e he => by simp at he⟩
    | none =>
      by_cases hcycle : key ∈ state.running
      · rw [force_of_mem_running hfound hcycle]
        refine ⟨rfl, hinv, fun e he => ?_⟩
        obtain rfl := Except.error.inj he
        exact h.cycle hinv hcycle
      obtain ⟨binding, hbinding⟩ := Option.isSome_iff_exists.1 hkey
      have hstored := p.stored?_of_binding? hbinding
      have hless := p.free_cons_lt (Option.isSome_of_eq_some hstored) hcycle
      obtain ⟨inner, rfl⟩ : ∃ inner, room = inner + 1 := Nat.exists_eq_add_one_of_ne_zero (by omega)
      have hforce : ∀ {state' : State α}, inv state' → state'.running = key :: state.running →
          ∀ found, (p.binding? found).isSome → Ends inv allowed (key :: state.running) (p.force inner found state') := by
        intro state' hinv' hrunning' found hbound
        rw [← hrunning'] at hless ⊢
        exact ih inner (Nat.lt_succ_self inner) hbound hinv' (by omega)
      have hpushed : inv (state.push key) := h.push hinv hfound hcycle hkey
      obtain ⟨hrunning', hinv', hallowed⟩ := run_ends h hkey hforce (h.recipe hbinding) hpushed rfl
      rw [force_of_stored? hfound hcycle hstored]
      exact ⟨by simp [State.pop, hrunning'], h.pop _ hinv' hrunning', hallowed⟩

theorem lookupFinal_ends (h : p.Keeps inv allowed) {name : String} (hname : name ∈ p.names) {state : State α}
    (hinv : inv state) (hrunning : state.running = []) : Ends inv allowed [] (p.lookupFinal name state) := by
  refine lookup_ends (fun key hkey => ?_) (fun habsent => ?_) hinv hrunning
  · rw [← hrunning]
    exact force_ends h hkey hinv (by rw [hrunning, free_nil])
  · exact absurd habsent (p.defined_eq_true_iff.1 (p.mem_names_iff.1 hname))

theorem collect_ends (h : p.Keeps inv allowed) {names : List String} (hnames : ∀ name ∈ names, name ∈ p.names)
    {state : State α} (hinv : inv state) (hrunning : state.running = []) :
    Ends inv allowed [] (p.collect names state) := by
  induction names generalizing state with
  | nil => exact ⟨hrunning, hinv, fun e he => by simp [collect] at he⟩
  | cons name rest ih =>
    have hfirst := lookupFinal_ends h (hnames name List.mem_cons_self) hinv hrunning
    have hrest := ih (fun n hn => hnames n (List.mem_cons_of_mem _ hn)) hfirst.inv hfirst.running
    rw [collect]
    rcases hlookup : p.lookupFinal name state with ⟨result, state'⟩
    rw [hlookup] at hfirst hrest
    cases result with
    | error e => exact hfirst.of_error
    | ok a =>
      rcases hcollect : p.collect rest state' with ⟨found, state''⟩
      simp only [hcollect] at hrest ⊢
      cases found with
      | error e => exact hrest.of_error
      | ok entries => exact ⟨hrest.running, hrest.inv, fun e he => by simp at he⟩

/-- A solved problem has kept the property all along, and a fault that it ends in is an allowed one. -/
theorem solve_ends (h : p.Keeps inv allowed) (hinit : inv {}) : Ends inv allowed [] p.solve := by
  have hcollect : Ends inv allowed [] (p.collect p.names {}) := collect_ends h (fun _ hname => hname) hinit rfl
  refine ⟨hcollect.running, hcollect.inv, fun e he => hcollect.allowed e ?_⟩
  exact map_eq_error_iff.1 he

end Problem

end HostFleet.Overlay
