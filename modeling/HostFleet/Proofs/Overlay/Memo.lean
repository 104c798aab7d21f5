import Mathlib.Data.Nat.Find
import HostFleet.Proofs.Overlay.Anew

/-!
# The memo is invisible

For error-propagating recipes the solver with its memo gives what the solver without one gives, faults included. A hit in
the memo skips a run that would have had other bindings running around it, so what has to be shown is that this run could
not have met one of them. The invariant is that every running binding waits for the one that is evaluated now: if it has
a value at some depth, then the awaited binding has one at a smaller depth. A memoised binding has a value, at a least
depth, and a running binding that has a value at that depth would make the depth smaller still.
-/

namespace HostFleet.Overlay

variable {α : Type}

namespace Problem

/-- Every value in the memo is the value of its key. -/
def Sound (p : Problem α) (state : State α) : Prop :=
  ∀ key a, state.found? key = some a → ∃ depth, p.value? depth key = some a

/-- One binding waits for another: it has no value before the other has one. -/
def Awaits (p : Problem α) (waiting key : Key) : Prop :=
  ∀ depth, (p.value? depth waiting).isSome → ∃ less < depth, (p.value? less key).isSome

variable {p : Problem α}

theorem Awaits.trans {first second third : Key} (h : p.Awaits first second) (h' : p.Awaits second third) :
    p.Awaits first third := by
  intro depth hdepth
  obtain ⟨less, hless, hsecond⟩ := h depth hdepth
  obtain ⟨least, hleast, hthird⟩ := h' less hsecond
  exact ⟨least, Nat.lt_trans hleast hless, hthird⟩

/-- A binding that waits for itself never gets a value. -/
theorem Awaits.value?_eq_none {key : Key} (h : p.Awaits key key) (depth : Nat) : p.value? depth key = none := by
  induction depth using Nat.strongRecOn with
  | ind depth ih =>
    rw [← Option.not_isSome_iff_eq_none]
    intro hvalue
    obtain ⟨less, hless, hsome⟩ := h depth hvalue
    simp [ih less hless] at hsome

/-- A binding with a value is evaluated to it wherever all that runs waits for it. -/
theorem forceAnew_of_awaits {running : List Key} {key : Key} {depth : Nat} {a : α} (h : p.value? depth key = some a)
    (hawait : ∀ k ∈ running, p.Awaits k key) : p.forceAnew running key = .ok a := by
  -- at the least depth of the key nothing that waits for it has a value yet
  have hex : ∃ d, (p.value? d key).isSome := ⟨depth, by simp [h]⟩
  obtain ⟨b, hb⟩ := Option.isSome_iff_exists.1 (Nat.find_spec hex)
  obtain rfl := p.value?_unique hb h
  refine forceAnew_of_value? hb fun k hk => ?_
  by_contra hsome
  obtain ⟨less, hless, hvalue⟩ := hawait k hk _ (Option.isSome_iff_ne_none.2 hsome)
  exact Nat.find_min hex hless hvalue

/-! ### What a step keeps -/

theorem Sound.of_memo_eq {state state' : State α} (hmemo : state'.memo = state.memo) (h : p.Sound state) :
    p.Sound state' := by
  intro key a hfound
  apply h key a
  rwa [State.found?, ← hmemo]

theorem Sound.pop {state : State α} (h : p.Sound state) {key : Key} {result : Except Fault α}
    (hresult : ∀ a, result = .ok a → ∃ depth, p.value? depth key = some a) : p.Sound (state.pop key result) := by
  cases result with
  | error e => exact h.of_memo_eq rfl
  | ok a =>
    intro other b hfound
    simp only [State.found?, State.pop, List.find?_cons] at hfound
    by_cases hkey : key = other
    · subst hkey
      simp at hfound
      exact hfound ▸ hresult a rfl
    · simp [hkey] at hfound
      exact h other b (by simpa [State.found?] using hfound)

/-! ### The cases of an evaluation -/

theorem force_of_found? {state : State α} {key : Key} {a : α} (hfound : state.found? key = some a) (room : Nat) :
    p.force room key state = (.ok a, state) := by
  unfold force
  simp [hfound]

theorem force_of_mem_running {state : State α} {key : Key} (hnew : state.found? key = none) (hcycle : key ∈ state.running)
    (room : Nat) : p.force room key state = (.error (.cycle (p.cyclePath state.running key)), state) := by
  unfold force
  simp [hnew, hcycle]

theorem force_of_stored?_eq_none {state : State α} {key : Key} (hnew : state.found? key = none)
    (hfree : key ∉ state.running) (hbinding : p.stored? key = none) (room : Nat) :
    p.force room key state = (.error (.missing key.name "<solver>"), state) := by
  unfold force
  simp [hnew, hfree, hbinding]

theorem force_of_stored? {state : State α} {key : Key} {binding : Binding α} (hnew : state.found? key = none)
    (hfree : key ∉ state.running) (hbinding : p.stored? key = some binding) (room : Nat) :
    p.force (room + 1) key state =
      let outcome := p.run (p.force room) (p.scope key) (binding.recipe (p.scope key)) (state.push key)
      (outcome.1, outcome.2.pop key outcome.1) := by
  rw [force]
  simp [hnew, hfree, hbinding]

/-! ### Recipes on the way to a value -/

/-- What remains of the recipe of a key still gives a value whenever the key has one. -/
def Continues (p : Problem α) (key : Key) (r : Recipe α) : Prop :=
  ∀ depth, (p.value? (depth + 1) key).isSome → (r.yield? (p.knowledge (p.value? depth) key)).isSome

/-- What remains of the recipe of a key is a look-up, which finds a value and goes on with it whenever the key has one. -/
def Asks (p : Problem α) (key : Key) (name : String) (height : Nat) (next : Except Fault α → Recipe α) : Prop :=
  ∀ depth, (p.value? (depth + 1) key).isSome →
    ∃ a, p.seen? (p.value? depth) name height = some a ∧
      ((next (.ok a)).yield? (p.knowledge (p.value? depth) key)).isSome

theorem continues_recipe {key : Key} {binding : Binding α} (hbinding : p.stored? key = some binding) :
    p.Continues key (binding.recipe (p.scope key)) := by
  intro depth hvalue
  rwa [p.value?_succ hbinding] at hvalue

theorem Continues.asks_prev {key : Key} {name : String} {next : Except Fault α → Recipe α}
    (h : p.Continues key (.prev name next)) : p.Asks key name key.layer next := by
  intro depth hvalue
  obtain ⟨a, hyield⟩ := Option.isSome_iff_exists.1 (h depth hvalue)
  obtain ⟨b, hseen, hnext⟩ := Recipe.yield?_prev_eq_some_iff.1 hyield
  exact ⟨b, hseen, Option.isSome_of_eq_some hnext⟩

theorem Continues.asks_final {key : Key} {name : String} {next : Except Fault α → Recipe α}
    (h : p.Continues key (.final name next)) : p.Asks key name p.layers.length next := by
  intro depth hvalue
  obtain ⟨a, hyield⟩ := Option.isSome_iff_exists.1 (h depth hvalue)
  obtain ⟨b, hseen, hnext⟩ := Recipe.yield?_final_eq_some_iff.1 hyield
  exact ⟨b, hseen, Option.isSome_of_eq_some hnext⟩

theorem Asks.awaits {key found : Key} {name : String} {height : Nat} {next : Except Fault α → Recipe α}
    (h : p.Asks key name height next) (hsight : p.sight name height = .bound found) : p.Awaits key found := by
  intro depth hvalue
  cases depth with
  | zero => simp [value?] at hvalue
  | succ depth =>
    obtain ⟨a, hseen, -⟩ := h depth hvalue
    rw [seen?, hsight] at hseen
    exact ⟨depth, Nat.lt_succ_self depth, Option.isSome_of_eq_some hseen⟩

/-- The value that the solver finds is the one that the depths agree on. -/
theorem eq_of_find_of_seen? (hp : p.Propagates) {running : List Key} {name : String} {height depth : Nat} {requester : String}
    {a b : α} (hfind : p.find (p.forceAnew running) name height requester = .ok a)
    (hseen : p.seen? (p.value? depth) name height = some b) : b = a := by
  unfold find at hfind
  unfold seen? at hseen
  split at hfind
  · rename_i key hsight
    rw [hsight] at hseen
    exact p.value?_unique hseen (value?_of_forceAnew hp hfind)
  · rename_i c hsight
    rw [hsight] at hseen
    exact (Option.some.inj hseen).symm.trans (Except.ok.inj hfind)
  · simp at hfind

theorem Asks.continues (hp : p.Propagates) {running : List Key} {key : Key} {name : String} {height : Nat} {requester : String}
    {next : Except Fault α → Recipe α} {a : α} (h : p.Asks key name height next)
    (hfind : p.find (p.forceAnew running) name height requester = .ok a) : p.Continues key (next (.ok a)) := by
  intro depth hvalue
  obtain ⟨b, hseen, hyield⟩ := h depth hvalue
  rwa [eq_of_find_of_seen? hp hfind hseen] at hyield

/-! ### The two solvers side by side -/

/-- A step gives what is expected, keeps the memo right and leaves the running bindings as they are. -/
structure Agrees (p : Problem α) (running : List Key) (outcome : Except Fault α × State α) (expected : Except Fault α) :
    Prop where
  result : outcome.1 = expected
  sound : p.Sound outcome.2
  running : outcome.2.running = running

theorem lookup_agrees {force : Key → Step α α} {running : List Key} {name : String} {height : Nat} {state : State α}
    (hforce : ∀ found, p.sight name height = .bound found → p.Agrees running (force found state) (p.forceAnew running found))
    (hsound : p.Sound state) (hrunning : state.running = running) (requester : String) :
    p.Agrees running (p.lookup force name height requester state)
      (p.find (p.forceAnew running) name height requester) := by
  rw [lookup_eq_sight, find]
  cases hsight : p.sight name height with
  | bound found => exact hforce found hsight
  | given a => exact ⟨rfl, hsound, hrunning⟩
  | absent => exact ⟨rfl, hsound, hrunning⟩

section Run

variable (hp : p.Propagates) {key : Key} {rest : List Key} (hawait : ∀ k ∈ rest, p.Awaits k key) {force : Key → Step α α}
  (hforce : ∀ {found : Key} {state : State α}, p.Sound state → state.running = key :: rest →
    (∀ k ∈ key :: rest, p.Awaits k found) → p.Agrees (key :: rest) (force found state) (p.forceAnew (key :: rest) found))

include hp hawait hforce

/-- A look-up and what follows it, for either kind of look-up. -/
theorem ask_agrees {name : String} {height : Nat} {next : Except Fault α → Recipe α} (hasks : p.Asks key name height next)
    (hfault : ∀ e, next (.error e) = .fault e)
    (hnext : ∀ a, p.Continues key (next (.ok a)) → ∀ {state : State α}, p.Sound state → state.running = key :: rest →
      p.Agrees (key :: rest) (p.run force (p.scope key) (next (.ok a)) state)
        ((next (.ok a)).result (p.answers (p.forceAnew (key :: rest)) key)))
    {state : State α} (hsound : p.Sound state) (hrunning : state.running = key :: rest) (requester : String) :
    p.Agrees (key :: rest)
      (p.run force (p.scope key) (next (p.lookup force name height requester state).1)
        (p.lookup force name height requester state).2)
      ((next (p.find (p.forceAnew (key :: rest)) name height requester)).result
        (p.answers (p.forceAnew (key :: rest)) key)) := by
  have hlookup : p.Agrees (key :: rest) (p.lookup force name height requester state)
      (p.find (p.forceAnew (key :: rest)) name height requester) := by
    refine lookup_agrees (fun found hsight => hforce hsound hrunning fun k hk => ?_) hsound hrunning requester
    have hkey : p.Awaits key found := hasks.awaits hsight
    rcases List.mem_cons.1 hk with rfl | hk
    · exact hkey
    · exact (hawait k hk).trans hkey
  obtain ⟨hresult, hsound', hrunning'⟩ := hlookup
  rw [hresult]
  cases hfind : p.find (p.forceAnew (key :: rest)) name height requester with
  | error e =>
    rw [hfault]
    exact ⟨rfl, hsound', hrunning'⟩
  | ok a => exact hnext a (hasks.continues hp hfind) hsound' hrunning'

theorem run_agrees {r : Recipe α} (hr : r.Propagates (p.scope key)) (hpath : p.Continues key r) {state : State α}
    (hsound : p.Sound state) (hrunning : state.running = key :: rest) :
    p.Agrees (key :: rest) (p.run force (p.scope key) r state)
      (r.result (p.answers (p.forceAnew (key :: rest)) key)) := by
  induction r generalizing state with
  | done result => exact ⟨rfl, hsound, hrunning⟩
  | remark text next ih => exact ih hr hpath (hsound.of_memo_eq rfl) hrunning
  | hasPrev name next ih => exact ih _ (hr _) hpath hsound hrunning
  | prev name next ih =>
    exact ask_agrees hp hawait hforce hpath.asks_prev hr.1 (fun a => ih _ (hr.2 a)) hsound hrunning _
  | final name next ih =>
    exact ask_agrees hp hawait hforce hpath.asks_final hr.1 (fun a => ih _ (hr.2 a)) hsound hrunning _

end Run

theorem force_agrees (hp : p.Propagates) {room : Nat} {key : Key} {state : State α} (hsound : p.Sound state)
    (hroom : p.free state.running ≤ room) (hawait : ∀ k ∈ state.running, p.Awaits k key) :
    p.Agrees state.running (p.force room key state) (p.forceAnew state.running key) := by
  induction room using Nat.strongRecOn generalizing key state with
  | ind room ih =>
    cases hfound : state.found? key with
    | some a =>
      obtain ⟨depth, hvalue⟩ := hsound key a hfound
      rw [force_of_found? hfound, forceAnew_of_awaits hvalue hawait]
      exact ⟨rfl, hsound, rfl⟩
    | none =>
      by_cases hcycle : key ∈ state.running
      · rw [force_of_mem_running hfound hcycle, p.forceAnew_of_mem hcycle]
        exact ⟨rfl, hsound, rfl⟩
      cases hbinding : p.stored? key with
      | none =>
        rw [force_of_stored?_eq_none hfound hcycle hbinding, p.forceAnew_of_stored?_eq_none hcycle hbinding]
        exact ⟨rfl, hsound, rfl⟩
      | some binding =>
        have hless := p.free_cons_lt (Option.isSome_of_eq_some hbinding) hcycle
        obtain ⟨inner, rfl⟩ : ∃ inner, room = inner + 1 := Nat.exists_eq_add_one_of_ne_zero (by omega)
        have hforce : ∀ {found : Key} {state' : State α}, p.Sound state' → state'.running = key :: state.running →
            (∀ k ∈ key :: state.running, p.Awaits k found) →
            p.Agrees (key :: state.running) (p.force inner found state') (p.forceAnew (key :: state.running) found) := by
          intro found state' hsound' hrunning' hawait'
          rw [← hrunning'] at hawait' hless ⊢
          exact ih inner (Nat.lt_succ_self inner) hsound' (by omega) hawait'
        have hpushed : p.Sound (state.push key) := hsound.of_memo_eq rfl
        obtain ⟨hresult, hsound', hrunning'⟩ := run_agrees hp hawait hforce (hp key binding hbinding)
          (continues_recipe hbinding) hpushed rfl
        rw [← p.forceAnew_of_stored? hcycle hbinding] at hresult
        rw [force_of_stored? hfound hcycle hbinding]
        refine ⟨hresult, hsound'.pop fun a ha => ?_, by simp [State.pop, hrunning']⟩
        exact ⟨_, value?_of_forceAnew hp (hresult.symm.trans ha)⟩

theorem lookupFinal_agrees (hp : p.Propagates) {state : State α} (hsound : p.Sound state) (hrunning : state.running = [])
    (name : String) :
    p.Agrees [] (p.lookupFinal name state) (p.find (p.forceAnew []) name p.layers.length "<final>") := by
  refine lookup_agrees (fun found _ => ?_) hsound hrunning _
  have hroom : p.free state.running ≤ p.room := by rw [hrunning, free_nil]
  have hforce : p.Agrees state.running (p.force p.room found state) (p.forceAnew state.running found) :=
    force_agrees hp hsound hroom (by simp [hrunning])
  rwa [hrunning] at hforce

theorem collect_cons (name : String) (rest : List String) (state : State α) :
    (p.collect (name :: rest) state).1 =
      match (p.lookupFinal name state).1 with
      | .error e => .error e
      | .ok a => (p.collect rest (p.lookupFinal name state).2).1.map ((name, a) :: ·) := by
  rw [collect]
  obtain ⟨result, state'⟩ := p.lookupFinal name state
  cases result with
  | error e => rfl
  | ok a =>
    dsimp only
    obtain ⟨found, state''⟩ := p.collect rest state'
    cases found <;> rfl

theorem collect_eq_collectAnew (hp : p.Propagates) (names : List String) {state : State α} (hsound : p.Sound state)
    (hrunning : state.running = []) : (p.collect names state).1 = p.collectAnew names := by
  induction names generalizing state with
  | nil => rfl
  | cons name rest ih =>
    obtain ⟨hresult, hsound', hrunning'⟩ := lookupFinal_agrees hp hsound hrunning name
    cases hfind : p.find (p.forceAnew []) name p.layers.length "<final>" with
    | error e => simp only [collect_cons, collectAnew, hresult, hfind]
    | ok a => simp only [collect_cons, collectAnew, hresult, hfind, ih hsound' hrunning']

/-- The memo is invisible in what a problem with error-propagating recipes is solved to. -/
theorem solve_eq_solveAnew (hp : p.Propagates) : p.solve.1 = p.solveAnew := by
  have hempty : p.Sound {} := fun key a hfound => by simp [State.found?] at hfound
  rw [solveAnew, ← collect_eq_collectAnew hp p.names hempty rfl]
  rfl

end Problem

/-- Solving a chain of overlays with a memo and without one gives the same set, or the same fault. -/
theorem apply_eq_solveAnew {chain : List (Overlay α)} (hchain : ∀ o ∈ chain, o.Propagates) (platform : Platform)
    (base : NameMap α) : apply chain platform base = (Problem.mk platform base (stack chain)).solveAnew :=
  Problem.solve_eq_solveAnew (Problem.propagates_stack hchain platform base)

/-- Three overlays whose definitions look down at each other and up at the finished set. -/
def crossing : List (Overlay Nat) :=
  [((new "a").set "x" 1).bind "y" fun _ => .demand "z" fun z => .value (z + 1),
    ((new "b").bind "x" fun _ => .demandPrev "x" fun x => .value (x * 10)).set "z" 5,
    ((new "c").bind "z" fun _ => .demandPrev "z" fun z => .demandPrev "x" fun x => .value (z + x)).bindIf "w"
      (fun platform => platform.name = "x86_64-linux") fun _ =>
        .demand "y" fun y => .demandPrev "x" fun x => .value (y + x)]

theorem propagates_crossing : ∀ o ∈ crossing, o.Propagates := by
  have hvalue : ∀ (scope : Scope) (n : Nat), (Recipe.value n).Propagates scope := Recipe.propagates_value
  intro o ho
  simp only [crossing, List.mem_cons, List.not_mem_nil, or_false] at ho
  rcases ho with rfl | rfl | rfl
  · refine ((each_new _ "a").bindWith (fun s => hvalue s 1) "x").bindWith (fun s => ?_) "y"
    exact Recipe.propagates_demand (fun z => hvalue s (z + 1)) "z"
  · refine ((each_new _ "b").bindWith (fun s => ?_) "x").bindWith (fun s => hvalue s 5) "z"
    exact Recipe.propagates_demandPrev (fun x => hvalue s (x * 10)) "x"
  · refine ((each_new _ "c").bindWith (fun s => ?_) "z").bindWith (fun s => ?_) "w"
    · exact Recipe.propagates_demandPrev (fun z => Recipe.propagates_demandPrev (fun x => hvalue s (z + x)) "x") "z"
    · exact Recipe.propagates_demand (fun y => Recipe.propagates_demandPrev (fun x => hvalue s (y + x)) "x") "y"

theorem apply_crossing_eq_solveAnew :
    (∀ o ∈ crossing, o.Propagates) ∧ apply crossing ⟨"x86_64-linux"⟩ (.ofList [("x", 0)]) =
      (Problem.mk ⟨"x86_64-linux"⟩ (.ofList [("x", 0)]) (stack crossing)).solveAnew :=
  ⟨propagates_crossing, apply_eq_solveAnew propagates_crossing _ _⟩

end HostFleet.Overlay
