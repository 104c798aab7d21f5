import HostFleet.Proofs.Overlay.Evaluation

/-!
# Runs and evaluations

`Problem.settled?` evaluates a binding without a memo and without a list of running bindings. A binding that it comes to an
end for is evaluated to the same result by the solver, in the middle of any run and after whatever came before: its recipe
asks only for bindings that come to an end earlier, and those that are running are not among them, as they wait for it. So
what recipes make of faults elsewhere cannot reach it through the memo. The other way round, a run that meets no cycle
evaluates nothing but bindings that come to an end.
-/

namespace HostFleet.Overlay

variable {α : Type}

namespace Problem

variable {p : Problem α}

/-! ### What comes to an end does so in every run -/

/-- The memo has no value for a binding but the one that evaluation comes to, if it comes to an end. -/
def Steady (p : Problem α) (state : State α) : Prop :=
  ∀ key a, state.found? key = some a → ∀ depth result, p.settled? depth key = some result → result = .ok a

theorem Steady.pop {state : State α} (h : p.Steady state) {key : Key} {result : Except Fault α}
    (hresult : ∀ depth result', p.settled? depth key = some result' → result' = result) : p.Steady (state.pop key result) := by
  cases result with
  | error e => exact h
  | ok a =>
    intro other b hfound
    rw [State.found?_pop_ok] at hfound
    split at hfound
    · rename_i heq
      rw [← heq, ← Option.some.inj hfound]
      exact hresult
    · exact h other b hfound

/-- A call gives a result and leaves a memo as it should be. -/
structure Gives (p : Problem α) (outcome : Except Fault α × State α) (result : Except Fault α) : Prop where
  result : outcome.1 = result
  steady : p.Steady outcome.2

section Gives

variable {known : Key → Option (Except Fault α)} {running : List Key} {force : Key → Step α α}
  (hresumes : ∀ (key : Key) (state : State α), state.Resumes (force key state).2)
  (hforce : ∀ {found result state}, known found = some result → p.Steady state → state.running = running →
    p.Gives (force found state) result)
  {state : State α} (hsteady : p.Steady state) (hrunning : state.running = running)

include hforce hsteady hrunning in
theorem lookup_gives {name : String} {height : Nat} {requester : String} {result : Except Fault α}
    (h : p.reply? known name height requester = some result) : p.Gives (p.lookup force name height requester state) result := by
  rw [lookup_eq_sight]
  rw [reply?] at h
  cases hsight : p.sight name height with
  | bound key =>
    rw [hsight] at h
    exact hforce h hsteady hrunning
  | given a =>
    rw [hsight] at h
    exact ⟨Option.some.inj h, hsteady⟩
  | absent =>
    rw [hsight] at h
    exact ⟨Option.some.inj h, hsteady⟩

include hresumes hforce

/-- A look-up and what follows it, for either kind of look-up. -/
theorem ask_gives {key : Key} {name : String} {height : Nat} {next : Except Fault α → Recipe α} {result : Except Fault α}
    (h : ((p.reply? known name height (p.scope key).frame).bind fun answer => (next answer).settle? (p.replies known key)) =
      some result)
    (hnext : ∀ answer {state : State α}, p.Steady state → state.running = running →
      (next answer).settle? (p.replies known key) = some result →
      p.Gives (p.run force (p.scope key) (next answer) state) result)
    {state : State α} (hsteady : p.Steady state) (hrunning : state.running = running) :
    p.Gives
      (p.run force (p.scope key) (next (p.lookup force name height (p.scope key).frame state).1)
        (p.lookup force name height (p.scope key).frame state).2) result := by
  obtain ⟨answer, hanswer, hrest⟩ := Option.bind_eq_some_iff.1 h
  obtain ⟨hresult, hafter⟩ := lookup_gives hforce hsteady hrunning hanswer
  rw [hresult]
  exact hnext answer hafter ((lookup_resumes hresumes _ _ _ _).running.trans hrunning) hrest

theorem run_gives {key : Key} {r : Recipe α} {result : Except Fault α} (h : r.settle? (p.replies known key) = some result)
    {state : State α} (hsteady : p.Steady state) (hrunning : state.running = running) :
    p.Gives (p.run force (p.scope key) r state) result := by
  induction r generalizing state with
  | done _ => exact ⟨Option.some.inj h, hsteady⟩
  | remark text next ih => exact ih h hsteady hrunning
  | hasPrev name next ih => exact ih _ h hsteady hrunning
  | prev name next ih => exact ask_gives hresumes hforce h (fun answer _ hs hr hn => ih answer hn hs hr) hsteady hrunning
  | final name next ih => exact ask_gives hresumes hforce h (fun answer _ hs hr hn => ih answer hn hs hr) hsteady hrunning

end Gives

/-- A binding that evaluation comes to an end for is evaluated to the same result wherever those that run do not come to an end
as early. -/
theorem force_gives {depth : Nat} {key : Key} {result : Except Fault α} (h : p.settled? depth key = some result) {room : Nat}
    {state : State α} (hsteady : p.Steady state) (hroom : p.free state.running ≤ room)
    (hrunning : ∀ k ∈ state.running, p.settled? depth k = none) : p.Gives (p.force room key state) result := by
  induction depth generalizing key result room state with
  | zero => simp [settled?] at h
  | succ depth ih =>
    have hearlier : ∀ k ∈ state.running, p.settled? depth k = none :=
      fun k hk => p.settled?_eq_none_of_le (Nat.le_succ depth) (hrunning k hk)
    -- at the least depth of the key the key itself is one of those that have not come to an end before it
    cases hbefore : p.settled? depth key with
    | some result' =>
      obtain rfl := p.settled?_unique hbefore h
      exact ih hbefore hsteady hroom hearlier
    | none =>
      cases hfound : state.found? key with
      | some a =>
        rw [force_of_found? hfound]
        exact ⟨(hsteady key a hfound _ _ h).symm, hsteady⟩
      | none =>
        have hfree : key ∉ state.running := by
          intro hcycle
          simp [hrunning key hcycle] at h
        cases hbinding : p.stored? key with
        | none =>
          rw [force_of_stored?_eq_none hfound hfree hbinding]
          simp only [settled?, hbinding] at h
          exact ⟨Option.some.inj h, hsteady⟩
        | some binding =>
          have hless := p.free_cons_lt (Option.isSome_of_eq_some hbinding) hfree
          obtain ⟨inner, rfl⟩ : ∃ inner, room = inner + 1 := Nat.exists_eq_add_one_of_ne_zero (by omega)
          have hforce : ∀ {found result' state'}, p.settled? depth found = some result' → p.Steady state' →
              state'.running = key :: state.running → p.Gives (p.force inner found state') result' := by
            intro found result' state' hsettled hsteady' hrunning'
            refine ih hsettled hsteady' (by rw [hrunning']; omega) ?_
            rw [hrunning']
            exact List.forall_mem_cons.2 ⟨hbefore, hearlier⟩
          have hpushed : p.Steady (state.push key) := hsteady
          obtain ⟨hresult, hafter⟩ := run_gives (p.force_resumes inner) hforce (p.settled?_succ hbinding depth ▸ h) hpushed rfl
          rw [force_of_stored? hfound hfree hbinding]
          refine ⟨hresult, hafter.pop fun depth' result' hsettled => ?_⟩
          rw [hresult]
          exact p.settled?_unique hsettled h

/-! ### What does not come to an end leaves the rest alone -/

section Steady

variable {running : List Key} {force : Key → Step α α}
  (hresumes : ∀ (key : Key) (state : State α), state.Resumes (force key state).2)
  (hforce : ∀ (found : Key) {state : State α}, p.Steady state → state.running = running → p.Steady (force found state).2)

include hforce

theorem lookup_steady {state : State α} (hsteady : p.Steady state) (hrunning : state.running = running) (name : String)
    (height : Nat) (requester : String) : p.Steady (p.lookup force name height requester state).2 := by
  rw [lookup_eq_sight]
  cases p.sight name height with
  | bound key => exact hforce key hsteady hrunning
  | given a => exact hsteady
  | absent => exact hsteady

include hresumes in
theorem run_steady {state : State α} (hsteady : p.Steady state) (hrunning : state.running = running) (scope : Scope)
    (r : Recipe α) : p.Steady (p.run force scope r state).2 := by
  induction r generalizing state with
  | done _ => exact hsteady
  | remark text next ih => exact ih hsteady hrunning
  | hasPrev name next ih => exact ih _ hsteady hrunning
  | prev name next ih =>
    have hresumed := lookup_resumes (p := p) hresumes name scope.level scope.frame state
    exact ih _ (lookup_steady hforce hsteady hrunning name scope.level scope.frame) (hresumed.running.trans hrunning)
  | final name next ih =>
    have hresumed := lookup_resumes (p := p) hresumes name p.layers.length scope.frame state
    exact ih _ (lookup_steady hforce hsteady hrunning name p.layers.length scope.frame) (hresumed.running.trans hrunning)

end Steady

theorem force_steady {room : Nat} {key : Key} {state : State α} (hsteady : p.Steady state) (hroom : p.free state.running ≤ room)
    (hrunning : ∀ k ∈ state.running, ∀ depth, p.settled? depth k = none) : p.Steady (p.force room key state).2 := by
  induction room using Nat.strongRecOn generalizing key state with
  | ind room ih =>
    by_cases hends : ∃ depth result, p.settled? depth key = some result
    · obtain ⟨depth, result, hsettled⟩ := hends
      exact (force_gives hsettled hsteady hroom fun k hk => hrunning k hk depth).steady
    have hnever : ∀ depth, p.settled? depth key = none :=
      fun depth => Option.eq_none_iff_forall_ne_some.2 fun result hsettled => hends ⟨depth, result, hsettled⟩
    obtain ⟨a, -, heq⟩ | ⟨e, -, heq⟩ | ⟨inner, binding, rfl, hnew, hfree, hbinding⟩ := p.force_cases room key state
    · rw [heq]
      exact hsteady
    · rw [heq]
      exact hsteady
    · have hless := p.free_cons_lt (Option.isSome_of_eq_some hbinding) hfree
      have hforce : ∀ (found : Key) {state' : State α}, p.Steady state' → state'.running = key :: state.running →
          p.Steady (p.force inner found state').2 := by
        intro found state' hsteady' hrunning'
        refine ih inner (Nat.lt_succ_self inner) hsteady' (by rw [hrunning']; omega) ?_
        rw [hrunning']
        exact List.forall_mem_cons.2 ⟨hnever, hrunning⟩
      have hpushed : p.Steady (state.push key) := hsteady
      rw [force_of_stored? hnew hfree hbinding]
      refine (run_steady (p.force_resumes inner) hforce hpushed rfl _ _).pop fun depth result hsettled => ?_
      simp [hnever] at hsettled

/-! ### Names of the finished set -/

section Final

variable {state : State α} (hsteady : p.Steady state) (hrunning : state.running = [])

include hsteady hrunning

theorem lookupFinal_gives {name : String} {depth : Nat} {result : Except Fault α}
    (h : p.reply? (p.settled? depth) name p.layers.length "<final>" = some result) :
    p.Gives (p.lookupFinal name state) result := by
  refine lookup_gives (fun hsettled hsteady' hrunning' => ?_) hsteady hrunning h
  exact force_gives hsettled hsteady' (p.free_le_room _) (by simp [hrunning'])

theorem lookupFinal_steady (name : String) : p.Steady (p.lookupFinal name state).2 := by
  refine lookup_steady (fun found {state'} hsteady' hrunning' => ?_) hsteady hrunning _ _ _
  exact force_steady hsteady' (p.free_le_room _) (by simp [hrunning'])

theorem eq_ok_of_mem_collect {names : List String} {after : State α} {found : List (String × α)}
    (h : p.collect names state = (.ok found, after)) {name : String} {a : α} (hmem : (name, a) ∈ found) {depth : Nat}
    {result : Except Fault α} (hreply : p.reply? (p.settled? depth) name p.layers.length "<final>" = some result) :
    result = .ok a := by
  induction names generalizing state found with
  | nil =>
    obtain rfl := Except.ok.inj (Prod.mk.inj h).1
    simp at hmem
  | cons first rest ih =>
    obtain ⟨b, between, more, hlookup, hcollect, rfl⟩ := p.collect_cons_eq_ok_iff.1 h
    rcases List.mem_cons.1 hmem with heq | hmem
    · obtain ⟨rfl, rfl⟩ := Prod.mk.inj heq
      rw [← (lookupFinal_gives hsteady hrunning hreply).result, hlookup]
    · have hbetween := lookupFinal_steady hsteady hrunning first
      have hresumes := (p.lookupFinal_resumes first state).running
      rw [hlookup] at hbetween hresumes
      exact ih hbetween (hresumes.trans hrunning) hcollect hmem

end Final

/-! ### Runs that meet no cycle -/

/-- From this moment on the run does not come back to a binding that is running. -/
def Clear (p : Problem α) (m : Moment α) : Prop :=
  ∀ m' key, p.Leads m m' → m'.activity = .force key → m'.state.found? key = none → key ∉ m'.state.running

variable {m m' : Moment α}

theorem Clear.later (h : p.Clear m) (hleads : p.Leads m m') : p.Clear m' :=
  fun m'' key hrest => h m'' key (hleads.trans hrest)

/-- A call ends in what evaluation comes to, and nothing else is in the memo. -/
structure Settles (p : Problem α) (outcome : Except Fault α × State α) (evaluation : Nat → Option (Except Fault α)) :
    Prop where
  result : ∃ depth, evaluation depth = some outcome.1
  backed : p.Backed outcome.2.found?

theorem lookup_settles {force : Key → Step α α} {name : String} {height : Nat} {requester : String}
    (hforce : ∀ {m₁ : Moment α} {found : Key}, m₁.activity = .force found → m₁.state = m.state → p.Clear m₁ →
      p.Settles (force found m₁.state) fun depth => p.settled? depth found)
    (hact : m.activity = .seek name height requester) (hclear : p.Clear m) (hbacked : p.Backed m.state.found?) :
    p.Settles (p.lookup force name height requester m.state) fun depth => p.reply? (p.settled? depth) name height requester := by
  rw [lookup_eq_sight]
  simp only [reply?]
  cases hsight : p.sight name height with
  | bound key =>
    have hleads : p.Leads m { m with activity := .force key } := .head (.sighted hact hsight) (.refl _)
    exact @hforce { m with activity := .force key } key rfl rfl (hclear.later hleads)
  | given a => exact ⟨⟨0, rfl⟩, hbacked⟩
  | absent => exact ⟨⟨0, rfl⟩, hbacked⟩

section Run

variable {room : Nat} {key : Key} {running : List Key}
  (hleads : ∀ {m : Moment α} {found : Key}, m.activity = .force found → m.state.running = running →
    p.Leads m (m.reply (p.force room found m.state)))
  (hforce : ∀ {m : Moment α} {found : Key}, m.activity = .force found → m.state.running = running → p.Clear m →
    p.Backed m.state.found? → p.Settles (p.force room found m.state) fun depth => p.settled? depth found)

include hleads hforce

/-- A look-up and what follows it. -/
theorem ask_settles (side : Side) {name : String} {next : Except Fault α → Recipe α}
    (hnext : ∀ answer {m : Moment α}, p.Clear m → m.activity = .cook key (next answer) → m.state.running = running →
      p.Backed m.state.found? → p.Settles (p.run (p.force room) (p.scope key) (next answer) m.state)
        fun depth => (next answer).settle? (p.replies (p.settled? depth) key))
    (hclear : p.Clear m) (hact : m.activity = .cook key (.ask side name next)) (hrunning : m.state.running = running)
    (hbacked : p.Backed m.state.found?) :
    p.Settles
      (p.run (p.force room) (p.scope key)
        (next (p.lookup (p.force room) name (p.height key side) (p.scope key).frame m.state).1)
        (p.lookup (p.force room) name (p.height key side) (p.scope key).frame m.state).2)
      fun depth => (Recipe.ask side name next).settle? (p.replies (p.settled? depth) key) := by
  have hasked : p.Leads m (p.asking m key side name next) := .head (.ask hact) (.refl _)
  have hlookup : p.Settles (p.lookup (p.force room) name (p.height key side) (p.scope key).frame m.state)
      fun depth => p.reply? (p.settled? depth) name (p.height key side) (p.scope key).frame := by
    refine lookup_settles (m := p.asking m key side name next) ?_ rfl (hclear.later hasked) hbacked
    intro m₁ found hact₁ hstate hclear₁
    refine hforce hact₁ ?_ hclear₁ ?_
    · rw [hstate]
      exact hrunning
    · rw [hstate]
      exact hbacked
  obtain ⟨⟨depth, hreply⟩, hafter⟩ := hlookup
  have hresumed :=
    (lookup_resumes (p := p) (p.force_resumes room) name (p.height key side) (p.scope key).frame m.state).running
  obtain ⟨⟨depth', hrest⟩, hlast⟩ := hnext _ (hclear.later (leads_ask hleads hact hrunning)) rfl (hresumed.trans hrunning) hafter
  refine ⟨⟨max depth depth', ?_⟩, hlast⟩
  rw [Recipe.settle?_ask, look_replies]
  refine Option.bind_eq_some_iff.2 ⟨_, p.reply?_mono (fun _ _ => ?_) hreply, Recipe.settle?_mono ?_ hrest⟩
  · exact p.settled?_mono (Nat.le_max_left depth depth')
  · exact p.replies_within (fun _ _ => p.settled?_mono (Nat.le_max_right depth depth')) key

theorem run_settles {r : Recipe α} (hclear : p.Clear m) (hact : m.activity = .cook key r) (hrunning : m.state.running = running)
    (hbacked : p.Backed m.state.found?) :
    p.Settles (p.run (p.force room) (p.scope key) r m.state) fun depth => r.settle? (p.replies (p.settled? depth) key) := by
  induction r generalizing m with
  | done result => exact ⟨⟨0, rfl⟩, hbacked⟩
  | remark text next ih =>
    have hlater : p.Clear { m with activity := .cook key next, state := m.state.remark text } :=
      hclear.later (.head (.remark hact) (.refl _))
    exact ih hlater rfl hrunning hbacked
  | hasPrev name next ih =>
    let later : Moment α := { m with activity := .cook key (next (p.defined key.layer name)) }
    have hlater : p.Clear later := hclear.later (.head (.hasPrev hact) (.refl _))
    exact ih _ (m := later) hlater rfl hrunning hbacked
  | prev name next ih => exact ask_settles hleads hforce .below ih hclear hact hrunning hbacked
  | final name next ih => exact ask_settles hleads hforce .finished ih hclear hact hrunning hbacked

end Run

theorem force_settles {room : Nat} {key : Key} (hact : m.activity = .force key) (hroom : p.free m.state.running ≤ room)
    (hclear : p.Clear m) (hbacked : p.Backed m.state.found?) :
    p.Settles (p.force room key m.state) fun depth => p.settled? depth key := by
  induction room using Nat.strongRecOn generalizing key m with
  | ind room ih =>
    cases hfound : m.state.found? key with
    | some a =>
      obtain ⟨depth, hdepth⟩ := hbacked
      rw [force_of_found? hfound]
      exact ⟨⟨depth, hdepth key a hfound⟩, ⟨depth, hdepth⟩⟩
    | none =>
      have hfree : key ∉ m.state.running := hclear m key (.refl m) hact hfound
      cases hbinding : p.stored? key with
      | none =>
        rw [force_of_stored?_eq_none hfound hfree hbinding]
        exact ⟨⟨1, by simp [settled?, hbinding]⟩, hbacked⟩
      | some binding =>
        have hless := p.free_cons_lt (Option.isSome_of_eq_some hbinding) hfree
        obtain ⟨inner, rfl⟩ : ∃ inner, room = inner + 1 := Nat.exists_eq_add_one_of_ne_zero (by omega)
        have hleads : ∀ {m₁ : Moment α} {found : Key}, m₁.activity = .force found →
            m₁.state.running = key :: m.state.running → p.Leads m₁ (m₁.reply (p.force inner found m₁.state)) := by
          intro m₁ found hact₁ hrunning₁
          rw [← hrunning₁] at hless
          exact leads_force hact₁ (by omega)
        have hforce : ∀ {m₁ : Moment α} {found : Key}, m₁.activity = .force found →
            m₁.state.running = key :: m.state.running → p.Clear m₁ → p.Backed m₁.state.found? →
            p.Settles (p.force inner found m₁.state) fun depth => p.settled? depth found := by
          intro m₁ found hact₁ hrunning₁ hclear₁ hbacked₁
          rw [← hrunning₁] at hless
          exact ih inner (Nat.lt_succ_self inner) hact₁ (by omega) hclear₁ hbacked₁
        have hbegun : p.Clear { m with activity := .cook key (binding.recipe (p.scope key)), state := m.state.push key } :=
          hclear.later (.head (.begin hact hfound hfree hbinding) (.refl _))
        obtain ⟨⟨depth, hresult⟩, hafter⟩ := run_settles hleads hforce hbegun rfl rfl hbacked
        have hsettled := (p.settled?_succ hbinding depth).trans hresult
        rw [force_of_stored? hfound hfree hbinding]
        refine ⟨⟨depth + 1, hsettled⟩, hafter.pop fun a ha => ⟨depth + 1, ?_⟩⟩
        rw [← ha]
        exact hsettled

theorem lookupFinal_settles {name : String} (hact : m.activity = .seek name p.layers.length "<final>") (hclear : p.Clear m)
    (hbacked : p.Backed m.state.found?) :
    p.Settles (p.lookupFinal name m.state) fun depth => p.reply? (p.settled? depth) name p.layers.length "<final>" := by
  refine lookup_settles (fun {m₁ found} hact₁ hstate hclear₁ => ?_) hact hclear hbacked
  refine force_settles hact₁ (p.free_le_room _) hclear₁ ?_
  rw [hstate]
  exact hbacked

theorem exists_reply?_of_mem_collect {names : List String} (hact : m.activity = .collect) (hwaiting : m.waiting = [])
    (htodo : m.todo = names) (hclear : p.Clear m) (hbacked : p.Backed m.state.found?) {after : State α}
    {found : List (String × α)} (h : p.collect names m.state = (.ok found, after)) {name : String} {a : α}
    (hmem : (name, a) ∈ found) : ∃ depth, p.reply? (p.settled? depth) name p.layers.length "<final>" = some (.ok a) := by
  induction names generalizing m found with
  | nil =>
    obtain rfl := Except.ok.inj (Prod.mk.inj h).1
    simp at hmem
  | cons first rest ih =>
    obtain ⟨b, between, more, hlookup, hcollect, rfl⟩ := p.collect_cons_eq_ok_iff.1 h
    let seeking : Moment α := { m with activity := .seek first p.layers.length "<final>", wanted := first, todo := rest }
    have hseeking : p.Leads m seeking := .head (.want hact htodo) (.refl _)
    obtain ⟨⟨depth, hreply⟩, hafter⟩ := lookupFinal_settles (m := seeking) rfl (hclear.later hseeking) hbacked
    have hanswered : p.Leads m (seeking.reply (p.lookupFinal first m.state)) := hseeking.trans (leads_lookup_room rfl)
    change p.reply? _ first _ _ = some (p.lookupFinal first m.state).1 at hreply
    change p.Backed (p.lookupFinal first m.state).2.found? at hafter
    rw [hlookup] at hreply hafter hanswered
    rcases List.mem_cons.1 hmem with heq | hmem
    · obtain ⟨rfl, rfl⟩ := Prod.mk.inj heq
      exact ⟨depth, hreply⟩
    · have hkept := hanswered.tail (.keep rfl hwaiting)
      exact ih (m := { seeking.reply (.ok b, between) with activity := .collect, found := (first, b) :: m.found }) rfl
        hwaiting rfl (hclear.later hkept) hafter hcollect hmem

end Problem

end HostFleet.Overlay
