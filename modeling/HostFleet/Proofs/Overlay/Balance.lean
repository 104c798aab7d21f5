import Mathlib.Data.List.Nodup
import Mathlib.Data.List.Perm.Subperm
import HostFleet.Proofs.Overlay.Course

/-!
# Order at every moment

The solver keeps a list of the bindings that are running. At every moment of a run this list is what it is meant to be:
it names the bindings whose recipes have begun and are not done, from the innermost to the outermost. No binding is named
twice, none of them has a value yet, and each is a binding that its layer has on the platform: the evaluation itself takes
what stands under a key, but a run evaluates only what a look-up found. So no more recipes can be at work inside one another
than there are such bindings, whatever they look up and whatever they do with a fault, and a run that starts comes to an end.
-/

namespace HostFleet.Overlay

variable {α : Type}

/-- What holds between the solver's own list of running bindings and the recipes that are at work, and what is known of a
binding that is about to be evaluated. -/
structure Moment.Orderly (p : Problem α) (m : Moment α) : Prop where
  running : m.state.running = m.active
  nodup : m.active.Nodup
  unfound : ∀ key ∈ m.active, m.state.found? key = none
  bound : ∀ key ∈ m.active, (p.binding? key).isSome
  sought : ∀ key, m.activity = .force key → (p.binding? key).isSome

namespace Moment.Orderly

variable {p : Problem α} {m m' : Moment α}

theorem congr (h : m.Orderly p) (hactive : m'.active = m.active) (hrunning : m'.state.running = m.state.running)
    (hmemo : m'.state.memo = m.state.memo) (hsought : ∀ key, m'.activity = .force key → (p.binding? key).isSome) :
    m'.Orderly p where
  running := by rw [hrunning, hactive, h.running]
  nodup := hactive ▸ h.nodup
  unfound := by
    intro key hkey
    rw [State.found?, hmemo]
    exact h.unfound key (hactive ▸ hkey)
  bound := fun key hkey => h.bound key (hactive ▸ hkey)
  sought := hsought

/-- The recipe that begins is that of a binding of the platform, as the look-up before found it. -/
theorem begin (h : m.Orderly p) {key : Key} {r : Recipe α} (hact : m.activity = .force key)
    (hnew : m.state.found? key = none) (hfree : key ∉ m.state.running) :
    Moment.Orderly p { m with activity := .cook key r, state := m.state.push key } := by
  have hactive : m.active = m.waiting.map Waiting.key := by simp [active, hact]
  rw [h.running] at hfree
  refine ⟨?_, ?_, ?_, ?_, by simp⟩
  · change key :: m.state.running = key :: m.waiting.map Waiting.key
    rw [h.running, hactive]
  · change (key :: m.waiting.map Waiting.key).Nodup
    rw [← hactive]
    exact List.nodup_cons.2 ⟨hfree, h.nodup⟩
  · change ∀ k ∈ key :: m.waiting.map Waiting.key, m.state.found? k = none
    rw [← hactive]
    exact List.forall_mem_cons.2 ⟨hnew, h.unfound⟩
  · change ∀ k ∈ key :: m.waiting.map Waiting.key, (p.binding? k).isSome
    rw [← hactive]
    exact List.forall_mem_cons.2 ⟨h.sought key hact, h.bound⟩

theorem done (h : m.Orderly p) {key : Key} {r : Recipe α} (hact : m.activity = .cook key r) (result : Except Fault α) :
    (m.reply (result, m.state.pop key result)).Orderly p := by
  have hactive : m.active = key :: m.waiting.map Waiting.key := by simp [active, hact]
  obtain ⟨hrunning, hnodup, hunfound, hbound, -⟩ := h
  rw [hactive] at hrunning hnodup hunfound hbound
  obtain ⟨hfresh, hrest⟩ := List.nodup_cons.1 hnodup
  refine ⟨?_, hrest, ?_, fun k hk => hbound k (List.mem_cons_of_mem key hk), by simp [reply]⟩
  · change m.state.running.tail = m.waiting.map Waiting.key
    rw [hrunning, List.tail_cons]
  · intro k hk
    have hne : key ≠ k := fun heq => hfresh (heq ▸ hk)
    change (m.state.pop key result).found? k = none
    rw [State.found?_pop_of_ne hne]
    exact hunfound k (List.mem_cons_of_mem key hk)

theorem turn (h : m.Orderly p) (hturn : p.Turn m m') : m'.Orderly p := by
  cases hturn with
  | @sighted name height requester key hact hsight =>
    refine h.congr (by simp [active, hact]) rfl rfl fun found hfound => ?_
    obtain rfl := Activity.force.inj hfound
    exact (p.sight_eq_bound hsight).2.2
  | begin hact hnew hfree _ => exact h.begin hact hnew hfree
  | done hact => exact h.done hact _
  | ask hact => exact h.congr (by simp [active, Problem.asking, hact]) rfl rfl (by simp [Problem.asking])
  | resume hact hwaiting => exact h.congr (by simp [active, hact, hwaiting]) rfl rfl (by simp)
  | remark hact | hasPrev hact => exact h.congr (by simp [active, hact]) rfl rfl (by simp)
  | finish hact _ | want hact _ | given hact _ | absent hact _ | known hact _ | cycle hact _ _ | unbound hact _ _ _
  | keep hact _ | fail hact _ => exact h.congr (by simp [active, reply, hact]) rfl rfl (by simp [reply])

end Moment.Orderly

namespace Problem

variable {p : Problem α} {m m' : Moment α}

theorem Meets.orderly (h : p.Meets m) : m.Orderly p := by
  have hstart : p.start.Orderly p :=
    ⟨rfl, List.nodup_nil, by simp [start, Moment.active], by simp [start, Moment.active], by simp [start]⟩
  exact Leads.keeps h (.refl _) (fun _ hturn horderly => horderly.turn hturn) hstart

/-- No value is lost or changed: what is done was running, so it had none. -/
theorem Turn.found? (hturn : p.Turn m m') (hm : p.Meets m) {key : Key} {a : α} (hfound : m.state.found? key = some a) :
    m'.state.found? key = some a := by
  cases hturn with
  | @done other result hact =>
    have hnone : m.state.found? other = none := hm.orderly.unfound other (by simp [Moment.active, hact])
    have hne : other ≠ key := by
      intro heq
      rw [heq, hfound] at hnone
      simp at hnone
    change (m.state.pop other result).found? key = some a
    rw [State.found?_pop_of_ne hne, hfound]
  | _ => exact hfound

/-! ### How many bindings there are -/

theorem nodup_boundKeys (p : Problem α) : p.boundKeys.Nodup := by
  have hindices : (p.layers.zipIdx.map Prod.snd).Nodup := by
    rw [List.zipIdx_map_snd]
    exact List.nodup_range'
  refine List.nodup_flatMap.2 ⟨?_, ?_⟩
  · intro entry _
    exact (entry.1.bindings.nodup_names.filter _).map fun _ _ h => (Key.mk.inj h).2
  · refine (List.pairwise_map.1 hindices).imp ?_
    intro entry other hne
    have hlayer : ∀ {index : Nat} {names : List String} {key : Key}, key ∈ names.map (Key.mk index) → key.layer = index := by
      intro index names key hkey
      obtain ⟨name, -, rfl⟩ := List.mem_map.1 hkey
      rfl
    intro key hkey hother
    exact hne ((hlayer hkey).symm.trans (hlayer hother))

theorem Meets.length_active_le (h : p.Meets m) : m.active.length ≤ p.boundKeys.length :=
  (List.subperm_of_subset h.orderly.nodup fun key hkey => p.mem_boundKeys_iff.2 (h.orderly.bound key hkey)).length_le

end Problem

/-- Recipes of any kind leave the solver's books in order. Whatever a call ends in, the running bindings are those of
before, no value is lost or changed, and a binding that failed has none. At every moment of a run no binding runs twice,
none has a value while it runs, and all of them are bindings of the platform. Calls made in a run are answered with what
the solver's functions give, and the run ends as the solver does. -/
theorem solver_keeps_order (chain : List (Overlay α)) (platform : Platform) (base : NameMap α) :
    let p : Problem α := ⟨platform, base, stack chain⟩
    (∀ (room : Nat) (key : Key) (state : State α), state.Resumes (p.force room key state).2 ∧
      ∀ e, (p.force room key state).1 = .error e → (p.force room key state).2.found? key = none) ∧
    (∀ (room : Nat) (name : String) (height : Nat) (requester : String) (state : State α),
      state.Resumes (p.lookup (p.force room) name height requester state).2) ∧
    (∀ m, p.Meets m → m.state.running.Nodup ∧
      (∀ key ∈ m.state.running, m.state.found? key = none ∧ (p.binding? key).isSome) ∧
      (∀ key, m.activity = .force key → p.Leads m (m.reply (p.force p.room key m.state))) ∧
      ∀ name height requester, m.activity = .seek name height requester →
        p.Leads m (m.reply (p.lookup (p.force p.room) name height requester m.state))) ∧
    ∃ last result, p.Meets last ∧ last.activity = .ended result ∧
      p.solve = (result.map NameMap.ofList, last.state) := by
  intro p
  refine ⟨fun room key state => ⟨p.force_resumes room key state, fun e he => p.found?_of_force_eq_error he⟩,
    fun room => Problem.lookup_resumes (p.force_resumes room), ?_, p.course_ends⟩
  intro m hm
  have horderly := hm.orderly
  rw [horderly.running]
  exact ⟨horderly.nodup, fun key hkey => ⟨horderly.unfound key hkey, horderly.bound key hkey⟩,
    fun key hact => Problem.leads_force_room hact, fun name height requester hact => Problem.leads_lookup_room hact⟩

/-- Three definitions around a cycle, the first of which makes do without the second. What stands on top is for another
platform. -/
def recovering : List (Overlay Nat) :=
  [((new "low").bind "a" fun _ => .final "b" fun
      | .ok n => .value n
      | .error _ => .value 0).bind "b" fun _ => .demand "c" fun n => .value (n + 1),
    (new "high").bind "c" fun _ => .demand "a" fun n => .value (n + 2),
    (new "arm").bindIf "c" (· == ⟨"aarch64-linux"⟩) fun _ => .value 9]

def recoveringProblem : Problem Nat := ⟨⟨"x86_64-linux"⟩, .empty, stack recovering⟩

theorem recovering_keeps_order :
    let m := recoveringProblem.onward 11 recoveringProblem.start
    (m.activity = .force ⟨0, "a"⟩ ∧ m.state.running = [⟨1, "c"⟩, ⟨0, "b"⟩, ⟨0, "a"⟩]) ∧
    ((recoveringProblem.stored? ⟨2, "c"⟩).isSome ∧ (recoveringProblem.binding? ⟨2, "c"⟩).isNone) ∧
    m.state.running.Nodup ∧
    (∀ key ∈ m.state.running, m.state.found? key = none ∧ (recoveringProblem.binding? key).isSome) ∧
    recoveringProblem.Leads m (m.reply (recoveringProblem.force recoveringProblem.room ⟨0, "a"⟩ m.state)) ∧
    (recoveringProblem.force 3 ⟨0, "b"⟩ { running := [⟨0, "a"⟩] }).1 = .error (.cycle ["low:a", "low:b", "high:c", "low:a"]) ∧
    (recoveringProblem.force 3 ⟨0, "b"⟩ { running := [⟨0, "a"⟩] }).2.found? ⟨0, "b"⟩ = none := by
  intro m
  obtain ⟨hforce, -, hmoments, -⟩ := solver_keeps_order recovering ⟨"x86_64-linux"⟩ .empty
  have hact : m.activity = .force ⟨0, "a"⟩ := by rfl
  have hrunning : m.state.running = [⟨1, "c"⟩, ⟨0, "b"⟩, ⟨0, "a"⟩] := by decide +kernel
  have hfault : (recoveringProblem.force 3 ⟨0, "b"⟩ { running := [⟨0, "a"⟩] }).1 =
      .error (.cycle ["low:a", "low:b", "high:c", "low:a"]) := by decide +kernel
  obtain ⟨hnodup, hkeys, hcall, -⟩ := hmoments m (.onward 11 _)
  exact ⟨⟨hact, hrunning⟩, by decide +kernel, hnodup, hkeys, hcall _ hact, hfault, (hforce _ _ _).2 _ hfault⟩

/-- Solving ends, however the definitions refer to each other. There are never more recipes at work inside one another than
bindings on the platform, and after finitely many steps the run is over, with the set or the fault that is returned. -/
theorem solving_ends (chain : List (Overlay α)) (platform : Platform) (base : NameMap α) :
    let p : Problem α := ⟨platform, base, stack chain⟩
    (p.boundKeys.Nodup ∧ ∀ key, key ∈ p.boundKeys ↔ ∃ layer binding, (stack chain)[key.layer]? = some layer ∧
      layer.bindings.get? key.name = some binding ∧ binding.accepts platform = true) ∧
    (∀ m, p.Meets m → m.state.running = m.active ∧ m.active.length ≤ p.boundKeys.length) ∧
    ∃ steps result, (p.onward steps p.start).activity = .ended result ∧
      apply chain platform base = result.map NameMap.ofList ∧ ∀ m, p.Meets m → p.Leads m (p.onward steps p.start) := by
  intro p
  refine ⟨⟨p.nodup_boundKeys, fun key => ?_⟩, fun m hm => ⟨hm.orderly.running, hm.length_active_le⟩, ?_⟩
  · rw [p.mem_boundKeys_iff, Option.isSome_iff_exists]
    simp only [p.binding?_eq_some_iff]
    exact exists_comm
  · obtain ⟨last, result, hlast, hended, hsolve⟩ := p.course_ends
    obtain ⟨steps, rfl⟩ := hlast.exists_onward
    refine ⟨steps, result, hended, congrArg Prod.fst hsolve, fun m hm => ?_⟩
    exact Problem.Leads.to_end hm hlast (Problem.next_of_ended hended)

/-- The bound is reached: the three definitions of the platform are at work at once, of the four that there are. -/
theorem recovering_ends :
    let m := recoveringProblem.onward 11 recoveringProblem.start
    m.active = [⟨1, "c"⟩, ⟨0, "b"⟩, ⟨0, "a"⟩] ∧ recoveringProblem.boundKeys.length = 3 ∧
    recoveringProblem.storedKeys.length = 4 ∧
    m.active.length ≤ recoveringProblem.boundKeys.length ∧
    apply recovering ⟨"x86_64-linux"⟩ .empty = .ok (.ofList [("a", 0), ("b", 3), ("c", 2)]) ∧
    ∃ steps result, (recoveringProblem.onward steps recoveringProblem.start).activity = .ended result ∧
      apply recovering ⟨"x86_64-linux"⟩ .empty = result.map NameMap.ofList ∧
      recoveringProblem.Leads m (recoveringProblem.onward steps recoveringProblem.start) := by
  intro m
  obtain ⟨-, hbound, steps, result, hended, hsolved, hall⟩ := solving_ends recovering ⟨"x86_64-linux"⟩ .empty
  refine ⟨by decide +kernel, by decide +kernel, by decide +kernel, (hbound m (.onward 11 _)).2, by decide +kernel, steps, result, hended, hsolved, ?_⟩
  exact hall m (.onward 11 _)

end HostFleet.Overlay
