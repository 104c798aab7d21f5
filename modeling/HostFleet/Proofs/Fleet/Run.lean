import Mathlib.Data.Finset.Card
import Mathlib.Data.Finset.Dedup
import HostFleet.Fleet.Run

/-!
# Runs answer as if nothing were remembered

A run remembers what came of each platform. `Run.Records` says what a run that was asked for some platforms knows: the
answer of a fresh build for each of them and nothing else, as many builds as there were different platforms, and one
remark that a build began for each. An action that keeps this, asks for some platforms and has a result that no run can
change `Serves`; a look-up in the store serves, and so does whatever is put together from such look-ups. So the result of
every call is that of the build without a store, whatever calls came before.
-/

namespace HostFleet

namespace Run

/-- A run that was asked for some platforms, in order and with repeats, knows what it should. -/
structure Records (supply : Supply) (requested : List Platform) (run : Run) : Prop where
  cached : ∀ platform, run.cached platform = if platform ∈ requested then some (supply.build platform) else none
  builds : run.builds = requested.toFinset.card
  told : ∀ platform, run.events.count (building platform) = if platform ∈ requested then 1 else 0

variable {supply : Supply} {requested : List Platform} {run : Run}

theorem records_empty (supply : Supply) : Records supply [] {} :=
  ⟨fun _ => rfl, rfl, fun _ => rfl⟩

/-- Neither the order of the requests nor their repeats are seen. -/
theorem Records.congr (h : Records supply requested run) {requested' : List Platform}
    (hsame : ∀ platform, platform ∈ requested ↔ platform ∈ requested') : Records supply requested' run := by
  have hset : requested.toFinset = requested'.toFinset := by
    ext platform
    rw [List.mem_toFinset, List.mem_toFinset, hsame]
  refine ⟨fun platform => ?_, hset ▸ h.builds, fun platform => ?_⟩
  · simp only [h.cached, hsame]
  · simp only [h.told, hsame]

theorem building_injective {platform other : Platform} (h : building platform = building other) : platform = other := by
  have hmessage := congrArg (fun event => event.message.toList) h
  simp only [building, String.toList_append] at hmessage
  have hname : platform.name = other.name := String.toList_inj.1 (List.append_cancel_left hmessage)
  cases platform
  cases other
  exact congrArg _ hname

/-- What another part of the program says, or what begins otherwise, tells of no build that begins. -/
theorem ne_building {event : Log.Event} (h : event.source ≠ .cache ∨ event.message.toList.head? ≠ some 'b')
    (platform : Platform) : event ≠ building platform := by
  rintro rfl
  rcases h with hsource | hhead
  · exact hsource rfl
  · simp [building] at hhead

theorem Records.say (h : Records supply requested run) {event : Log.Event}
    (hevent : ∀ platform, event ≠ building platform) :
    Records supply requested { run with events := run.events ++ [event] } := by
  refine ⟨h.cached, h.builds, fun platform => ?_⟩
  have hnone : [event].count (building platform) = 0 := List.count_eq_zero.2 (by simpa using (hevent platform).symm)
  rw [List.count_append, hnone, h.told]
  rfl

/-- A build of a platform that was not asked for before. -/
theorem Records.build (h : Records supply requested run) {platform : Platform} (hnew : platform ∉ requested) :
    Records supply (requested ++ [platform])
      { answers := run.answers.insert platform.name (supply.build platform), builds := run.builds + 1,
        events := run.events ++ [building platform] } := by
  refine ⟨fun other => ?_, ?_, fun other => ?_⟩
  · have hcached := cached_remember run platform other (supply.build platform)
    refine hcached.trans ?_
    by_cases hsame : other = platform
    · simp [hsame]
    · simp [hsame, h.cached]
  · have hset : (requested ++ [platform]).toFinset = insert platform requested.toFinset := by
      ext other
      simp
    have hout : platform ∉ requested.toFinset := by simpa using hnew
    rw [hset, Finset.card_insert_of_notMem hout, h.builds]
  · rw [List.count_append, h.told, List.count_singleton]
    by_cases hsame : other = platform
    · subst hsame
      simp [hnew]
    · have hother : building platform ≠ building other := fun heq => hsame (building_injective heq).symm
      simp [hsame, hother]

/-- The run after some calls on a fresh one. -/
def after {κ : Type} (act : κ → StateM Run Unit) (past : List κ) : Run :=
  past.foldl (fun run call => ((act call).run run).2) {}

end Run

namespace Supply

/-! ### One look-up -/

theorem run_get_of_cached (supply : Supply) {run : Run} {platform : Platform} {built : Built}
    (h : run.cached platform = some built) :
    (supply.get platform).run run = (built, { run with
      events := run.events ++ [⟨.debug, .cache, "package set for " ++ platform.name ++ ": cache hit"⟩] }) := by
  simp only [get, Run.note, Run.say, StateT.run_bind, StateT.run_get, pure_bind, h]
  rfl

/-- A platform that was not built yet is built; what is said after the build depends on what came of it. -/
theorem run_get_of_not_cached (supply : Supply) {run : Run} {platform : Platform} (h : run.cached platform = none) :
    ∃ event, (∀ other, event ≠ Run.building other) ∧ (supply.get platform).run run =
      (supply.build platform, {
        answers := run.answers.insert platform.name (supply.build platform)
        builds := run.builds + 1
        events := run.events ++ [Run.building platform] ++ [event] }) := by
  have hget : (supply.get platform).run run = (supply.buildNew platform).run run := by
    simp only [get, StateT.run_bind, StateT.run_get, pure_bind, h]
  rw [hget, buildNew]
  cases hbuilt : supply.build platform with
  | ok set =>
    exact ⟨⟨.debug, .cache, "package set for " ++ platform.name ++ ": " ++ toString set.size ++ " packages"⟩,
      Run.ne_building (.inr (by simp)), rfl⟩
  | error fault =>
    exact ⟨⟨.warn, .cache, "package set for " ++ platform.name ++ " failed: " ++ fault.message⟩,
      Run.ne_building (.inr (by simp)), rfl⟩

/-! ### Actions that no run can change -/

/-- The action asks for some platforms and has the same result in every run that knows what it should, and such a run knows
what it should afterwards. -/
def Serves (supply : Supply) {β : Type} (asks : List Platform) (action : StateM Run β) (result : β) : Prop :=
  ∀ requested run, Run.Records supply requested run →
    (action.run run).1 = result ∧ Run.Records supply (requested ++ asks) (action.run run).2

variable {supply : Supply} {β γ : Type}

theorem serves_pure (b : β) : supply.Serves [] (pure b) b := by
  intro requested run h
  refine ⟨rfl, ?_⟩
  rw [List.append_nil]
  exact h

theorem Serves.congr {asks asks' : List Platform} {action : StateM Run β} {b : β} (h : supply.Serves asks action b)
    (hsame : ∀ platform, platform ∈ asks ↔ platform ∈ asks') : supply.Serves asks' action b := by
  intro requested run hrun
  obtain ⟨hresult, hrecords⟩ := h requested run hrun
  refine ⟨hresult, hrecords.congr fun platform => ?_⟩
  rw [List.mem_append, List.mem_append, hsame]

theorem Serves.bind {asks more : List Platform} {action : StateM Run β} {next : β → StateM Run γ} {b : β} {c : γ}
    (haction : supply.Serves asks action b) (hnext : supply.Serves more (next b) c) :
    supply.Serves (asks ++ more) (action >>= next) c := by
  intro requested run h
  obtain ⟨hresult, hrecords⟩ := haction requested run h
  obtain ⟨hresult', hrecords'⟩ := hnext _ _ hrecords
  have hrun : (action >>= next).run run = (next b).run (action.run run).2 := by
    rw [← hresult]
    rfl
  rw [hrun, ← List.append_assoc]
  exact ⟨hresult', hrecords'⟩

theorem Serves.map {asks : List Platform} {action : StateM Run β} {b : β} (h : supply.Serves asks action b) (f : β → γ) :
    supply.Serves asks (do return f (← action)) (f b) := by
  have hbind : supply.Serves (asks ++ []) (action >>= fun b => pure (f b)) (f b) := h.bind (serves_pure (f b))
  rwa [List.append_nil] at hbind

theorem serves_say {event : Log.Event} (hevent : ∀ platform, event ≠ Run.building platform) :
    supply.Serves [] (Run.say event) () := by
  intro requested run h
  refine ⟨rfl, ?_⟩
  rw [List.append_nil]
  exact h.say hevent

theorem serves_get (supply : Supply) (platform : Platform) :
    supply.Serves [platform] (supply.get platform) (supply.build platform) := by
  intro requested run h
  by_cases hold : platform ∈ requested
  · have hcached : run.cached platform = some (supply.build platform) := by rw [h.cached, if_pos hold]
    rw [supply.run_get_of_cached hcached]
    refine ⟨rfl, (h.say (Run.ne_building (.inr (by simp)))).congr fun other => ?_⟩
    simp only [List.mem_append, List.mem_singleton]
    exact ⟨.inl, fun hother => hother.elim id (· ▸ hold)⟩
  · have hcached : run.cached platform = none := by rw [h.cached, if_neg hold]
    obtain ⟨event, hevent, hrun⟩ := supply.run_get_of_not_cached hcached
    rw [hrun]
    exact ⟨rfl, (h.build hold).say hevent⟩

theorem Serves.mapM {asks : β → List Platform} {action : β → StateM Run γ} {result : β → γ} {l : List β}
    (h : ∀ b ∈ l, supply.Serves (asks b) (action b) (result b)) :
    supply.Serves (l.flatMap asks) (l.mapM action) (l.map result) := by
  induction l with
  | nil => exact serves_pure []
  | cons b rest ih =>
    have hfirst := h b List.mem_cons_self
    have hrest := ih fun c hc => h c (List.mem_cons_of_mem b hc)
    rw [List.mapM_cons, List.flatMap_cons]
    exact hfirst.bind (hrest.map _)

theorem serves_warm (supply : Supply) (platforms : List Platform) :
    supply.Serves platforms (supply.warm platforms) (platforms.map fun p => (p, supply.build p)) := by
  have hone : ∀ p ∈ platforms, supply.Serves [p] (do return (p, ← supply.get p)) (p, supply.build p) :=
    fun p _ => (supply.serves_get p).map _
  have hall := Serves.mapM hone
  rwa [List.flatMap_singleton'] at hall

/-! ### Histories of calls -/

theorem Serves.discard {asks : List Platform} {action : StateM Run β} {b : β} (h : supply.Serves asks action b) :
    supply.Serves asks (discard action) () :=
  fun requested run hrun => ⟨rfl, (h requested run hrun).2⟩

/-- What one call keeps, every history of calls keeps. -/
theorem records_run {κ : Type} {asks : κ → List Platform} {act : κ → StateM Run Unit}
    (h : ∀ call, supply.Serves (asks call) (act call) ()) (past : List κ) :
    Run.Records supply (past.flatMap asks) (Run.after act past) := by
  induction past using List.reverseRecOn with
  | nil => exact Run.records_empty supply
  | append_singleton past call ih =>
    rw [List.flatMap_append, List.flatMap_singleton, Run.after, List.foldl_append]
    exact (h call _ _ ih).2

inductive Call where
  | get (platform : Platform)
  | warm (platforms : List Platform)
  | cached (platform : Platform)

def Call.asks : Call → List Platform
  | .get platform => [platform]
  | .warm platforms => platforms
  | .cached _ => []

/-- What came of a platform, read from the run and not built. -/
def peek (platform : Platform) : StateM Run (Option Built) := do return (← MonadState.get).cached platform

/-- What a call does, its result aside. -/
def Call.act (supply : Supply) : Call → StateM Run Unit
  | .get platform => discard (supply.get platform)
  | .warm platforms => discard (supply.warm platforms)
  | .cached platform => discard (peek platform)

def after (supply : Supply) (past : List Call) : Run := Run.after (Call.act supply) past

theorem Call.serves (supply : Supply) (call : Call) : supply.Serves call.asks (call.act supply) () := by
  cases call with
  | get platform => exact (supply.serves_get platform).discard
  | warm platforms => exact (supply.serves_warm platforms).discard
  | cached platform => exact serves_pure ()

theorem records_after (supply : Supply) (past : List Call) :
    Run.Records supply (past.flatMap Call.asks) (supply.after past) :=
  records_run (Call.serves supply) past

theorem get_after (supply : Supply) (past : List Call) (platform : Platform) :
    ((supply.get platform).run (supply.after past)).1 = supply.build platform :=
  (supply.serves_get platform _ _ (supply.records_after past)).1

theorem build_eq (supply : Supply) (platform : Platform) :
    supply.build platform =
      match supply.source platform with
      | .error fault => .error fault
      | .ok base =>
        match Overlay.apply supply.overlays platform base with
        | .error fault => .error (.overlay platform fault)
        | .ok packages => .ok ⟨platform, packages⟩ := by
  unfold build
  cases supply.source platform with
  | error fault => rfl
  | ok base =>
    simp only [bind, Except.bind]
    cases Overlay.apply supply.overlays platform base <;> rfl

end Supply

/-- The store of package sets refines the build without one. After every history of calls, a look-up gives what the source
and the overlays make of the platform, faults included, and so does each element of a list of them; what was built can be
read for exactly the platforms that were asked for, and reading it changes nothing; and each of them was built once. -/
theorem supply_run_refines_build (supply : Supply) (past : List Supply.Call) :
    (∀ platform, ((supply.get platform).run (supply.after past)).1 =
      match supply.source platform with
      | .error fault => .error fault
      | .ok base =>
        match Overlay.apply supply.overlays platform base with
        | .error fault => .error (.overlay platform fault)
        | .ok packages => .ok ⟨platform, packages⟩) ∧
    (∀ platforms, ((supply.warm platforms).run (supply.after past)).1 =
      platforms.map fun platform => (platform, ((supply.get platform).run (supply.after past)).1)) ∧
    (∀ platform, (supply.after past).cached platform =
      if platform ∈ past.flatMap Supply.Call.asks then some ((supply.get platform).run (supply.after past)).1 else none) ∧
    (∀ platform rest, supply.after (past ++ .cached platform :: rest) = supply.after (past ++ rest)) ∧
    (supply.after past).builds = (past.flatMap Supply.Call.asks).toFinset.card ∧
    ∀ platform, (supply.after past).events.count (Run.building platform) =
      if platform ∈ past.flatMap Supply.Call.asks then 1 else 0 := by
  have hrecords := supply.records_after past
  refine ⟨fun platform => ?_, fun platforms => ?_, fun platform => ?_, fun platform rest => ?_, hrecords.builds,
    hrecords.told⟩
  · rw [supply.get_after, supply.build_eq]
  · simp only [supply.get_after]
    exact (supply.serves_warm platforms _ _ hrecords).1
  · rw [supply.get_after]
    exact hrecords.cached platform
  · rw [Supply.after, Supply.after, Run.after, Run.after, List.foldl_append, List.foldl_append]
    rfl

end HostFleet
