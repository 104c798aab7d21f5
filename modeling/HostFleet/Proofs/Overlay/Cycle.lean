import Mathlib.Data.List.Chain
import HostFleet.Proofs.Overlay.Balance
import HostFleet.Proofs.Overlay.Evaluation

/-!
# Reported cycles are real

Where recipes pass faults on at once, a recipe that waits for an answer has had values for all the answers before. So what it
waits for is what it looks up on values that are known at that moment, and next to each other in the list of running bindings
stand a binding and one that it demands. A binding that is demanded while it is running closes such a chain, and a binding
on a closed chain is not evaluated at any depth: it would need the next one at a smaller depth, all the way round.
-/

namespace HostFleet.Overlay

variable {α : Type}

namespace Problem

/-- Bindings in a circle: each demands the next, and the last one the first. -/
structure Circuit (p : Problem α) (known : Key → Option α) (first : Key) (others : List Key) : Prop where
  distinct : (first :: others).Nodup
  bound : ∀ key ∈ first :: others, (p.binding? key).isSome
  demands : (first :: (others ++ [first])).IsChain (p.Demands known)

variable {p : Problem α} {known : Key → Option α} {first : Key} {others : List Key}

theorem Circuit.exists_demands (h : p.Circuit known first others) {key : Key} (hkey : key ∈ first :: others) :
    ∃ found ∈ first :: others, p.Demands known key found := by
  obtain ⟨front, back, hsplit⟩ := List.append_of_mem hkey
  have hround : first :: (others ++ [first]) = front ++ key :: (back ++ [first]) := by
    rw [← List.cons_append, hsplit, List.append_assoc, List.cons_append]
  have hchain := h.demands
  rw [hround] at hchain
  have hrest : (key :: (back ++ [first])).IsChain (p.Demands known) := hchain.right_of_append
  cases back with
  | nil => exact ⟨first, List.mem_cons_self, hrest.rel_head? rfl⟩
  | cons found _ => exact ⟨found, by simp [hsplit], hrest.rel_head? rfl⟩

theorem Circuit.settled?_eq_none (h : p.Circuit known first others) (hknown : p.Backed known) {key : Key}
    (hkey : key ∈ first :: others) (depth : Nat) : p.settled? depth key = none := by
  induction depth generalizing key with
  | zero => rfl
  | succ depth ih =>
    obtain ⟨found, hfound, hdemands⟩ := h.exists_demands hkey
    exact hdemands.settled?_eq_none hknown (ih hfound)

/-- The reported path skips what was running before the binding that comes up again. -/
theorem exists_cyclePath_eq (p : Problem α) {running : List Key} {key : Key} (hcycle : key ∈ running) :
    ∃ latest older, running = latest ++ key :: older ∧
      p.cyclePath running key = (key :: (latest.reverse ++ [key])).map fun k => (p.scope k).frame := by
  obtain ⟨latest, older, hsplit, hfresh⟩ := List.eq_append_cons_of_mem hcycle
  refine ⟨latest, older, hsplit, ?_⟩
  have hlatest : running.takeWhile (· ≠ key) = latest := by
    rw [hsplit, List.takeWhile_append_of_pos, List.takeWhile_cons_of_neg, List.append_nil]
    · simp
    · intro other hother
      have hne : other ≠ key := fun heq => hfresh (heq ▸ hother)
      simpa using hne
  rw [cyclePath, hlatest]

/-- A fault that reports a cycle shows the circuit that a demand has closed at some moment of the run. -/
def Genuine (p : Problem α) : Fault → Prop
  | .cycle path => ∃ first others, path = (first :: (others ++ [first])).map (fun key => (p.scope key).frame) ∧
      ∃ m older, p.Meets m ∧ m.activity = .force first ∧ m.state.running = others.reverse ++ first :: older ∧
        p.Circuit m.state.found? first others
  | _ => True

end Problem

/-- The look-up that a recipe waits for finds the binding of a key. -/
def Waiting.Finds (p : Problem α) (w : Waiting α) (key : Key) : Prop :=
  p.sight w.name (p.height w.key w.side) = .bound key

theorem Waiting.Finds.seen? {p : Problem α} {known : Key → Option α} {w : Waiting α} {key : Key} {a : α}
    (h : w.Finds p key) (hknown : known key = some a) : p.seen? known w.name (p.height w.key w.side) = some a := by
  rw [Problem.seen?, h]
  exact hknown

namespace Activity

/-- What the solver is at is done for a recipe that waits. -/
def Serves (p : Problem α) (known : Key → Option α) (w : Waiting α) : Activity α → Prop
  | .seek name height _ => name = w.name ∧ height = p.height w.key w.side
  | .force key => w.Finds p key
  | .cook key _ => w.Finds p key
  | .answer (.ok a) => p.seen? known w.name (p.height w.key w.side) = some a
  | .answer (.error _) => True
  | .collect => False
  | .ended _ => False

/-- What is left of a recipe is what known values leave of it, or else a fault that it passes on, and faults that are passed
on are genuine. -/
def Explained (p : Problem α) (known : Key → Option α) : Activity α → Prop
  | .cook key rest => p.Reaches known key rest ∨ ∃ e, rest = .fault e ∧ p.Genuine e
  | .answer (.error e) => p.Genuine e
  | .ended (.error e) => p.Genuine e
  | _ => True

section Explained

variable {p : Problem α} {known : Key → Option α} {key : Key}

theorem Explained.reaches {rest : Recipe α} (h : (cook key rest).Explained p known) (hrest : ∀ e, rest ≠ .fault e) :
    p.Reaches known key rest := by
  rcases h with hreaches | ⟨e, hfault, -⟩
  · exact hreaches
  · exact absurd hfault (hrest e)

/-- A fault that a recipe ends in was passed on or is its own giving up, which is no cycle. -/
theorem Explained.genuine (hp : p.Propagates) {e : Fault} (h : (cook key (.done (.error e))).Explained p known) :
    p.Genuine e := by
  rcases h with hreaches | ⟨_, hfault, hgenuine⟩
  · obtain ⟨reason, rfl⟩ := hreaches.propagates hp
    trivial
  · cases hfault
    exact hgenuine

end Explained

end Activity

/-- Each recipe that waits has come there on known values and waits for the one that waits next. -/
structure Moment.Traced (p : Problem α) (m : Moment α) : Prop where
  links : m.waiting.IsChain fun later earlier => earlier.Finds p later.key
  waiting : ∀ w ∈ m.waiting, p.Reaches m.state.found? w.key (.ask w.side w.name w.next)
  serves : ∀ w ∈ m.waiting.head?, m.activity.Serves p m.state.found? w
  explained : m.activity.Explained p m.state.found?

namespace Moment.Traced

variable {p : Problem α} {m m' : Moment α}

theorem congr (h : m.Traced p) {activity : Activity α} (hact : m.activity = activity) (hwaiting : m'.waiting = m.waiting)
    (hfound : ∀ key a, m.state.found? key = some a → m'.state.found? key = some a)
    (hserves : ∀ w ∈ m.waiting.head?, activity.Serves p m.state.found? w → m'.activity.Serves p m'.state.found? w)
    (hexplained : m'.activity.Explained p m'.state.found?) : m'.Traced p where
  links := hwaiting ▸ h.links
  waiting := by
    intro w hw
    rw [hwaiting] at hw
    exact (h.waiting w hw).mono hfound
  serves := by
    intro w hw
    rw [hwaiting] at hw
    exact hserves w hw (hact ▸ h.serves w hw)
  explained := hexplained

theorem ask (h : m.Traced p) {key : Key} {side : Side} {name : String} {rest : Except Fault α → Recipe α}
    (hact : m.activity = .cook key (.ask side name rest)) : (p.asking m key side name rest).Traced p := by
  obtain ⟨hlinks, hwaiting, hserves, hexplained⟩ := h
  rw [hact] at hserves hexplained
  have hreaches := hexplained.reaches (by cases side <;> simp [Recipe.ask, Recipe.fault])
  refine ⟨List.isChain_cons.2 ⟨hserves, hlinks⟩, List.forall_mem_cons.2 ⟨hreaches, hwaiting⟩, ?_, trivial⟩
  intro w hw
  obtain rfl := Option.some.inj hw
  exact ⟨rfl, rfl⟩

theorem resume (hp : p.Propagates) (h : m.Traced p) {result : Except Fault α} {w : Waiting α} {others : List (Waiting α)}
    (hact : m.activity = .answer result) (hwaiting : m.waiting = w :: others) :
    Moment.Traced p { m with activity := .cook w.key (w.next result), waiting := others } := by
  obtain ⟨hlinks, hall, hserves, hexplained⟩ := h
  rw [hwaiting] at hlinks hall hserves
  rw [hact] at hserves hexplained
  obtain ⟨hw, hothers⟩ := List.forall_mem_cons.1 hall
  refine ⟨hlinks.tail, hothers, fun earlier hearlier => hlinks.rel_head? hearlier, ?_⟩
  cases result with
  | ok a =>
    refine .inl (hw.tail (.ask ?_))
    rw [Problem.look_knowledge]
    exact hserves w rfl
  | error e => exact .inr ⟨e, (hw.propagates hp).of_ask.1 e, hexplained⟩

/-- Each running binding demands the one that began after it, and the latest demands the one that is about to begin. -/
theorem demands (h : m.Traced p) (horderly : m.Orderly p) {key : Key} (hact : m.activity = .force key) :
    (key :: m.state.running).IsChain fun later earlier => p.Demands m.state.found? earlier later := by
  have hkeys : m.state.running = m.waiting.map Waiting.key := by
    rw [horderly.running]
    simp [active, hact]
  rw [hkeys, List.isChain_cons, List.isChain_map]
  constructor
  · intro earlier hearlier
    rw [List.head?_map] at hearlier
    obtain ⟨w, hw, rfl⟩ := Option.map_eq_some_iff.1 hearlier
    have hfinds := h.serves w hw
    rw [hact] at hfinds
    exact ⟨w.side, w.name, w.next, h.waiting w (List.mem_of_mem_head? hw), hfinds⟩
  · refine h.links.imp_of_mem_imp ?_
    intro later earlier _ hearlier hfinds
    exact ⟨earlier.side, earlier.name, earlier.next, h.waiting earlier hearlier, hfinds⟩

/-- A binding that is demanded while it is running closes a circuit. -/
theorem circuit (h : m.Traced p) (horderly : m.Orderly p) {key : Key} {latest older : List Key}
    (hact : m.activity = .force key) (hsplit : m.state.running = latest ++ key :: older) :
    p.Circuit m.state.found? key latest.reverse := by
  have hdemands := h.demands horderly hact
  obtain ⟨hrunning, hnodup, -, hbound⟩ := horderly
  rw [← hrunning] at hnodup hbound
  rw [hsplit] at hdemands hnodup hbound
  refine ⟨?_, ?_, ?_⟩
  · have hround := (List.nodup_middle.1 hnodup).sublist (List.Sublist.cons_cons key (List.sublist_append_left latest older))
    rw [List.nodup_cons, List.mem_reverse, List.nodup_reverse, ← List.nodup_cons]
    exact hround
  · intro other hother
    refine hbound other ?_
    rcases List.mem_cons.1 hother with rfl | hlater
    · simp
    · exact List.mem_append_left _ (List.mem_reverse.1 hlater)
  · -- the list of running bindings has the latest first, so the circuit is its beginning read backwards
    have hround : key :: (latest.reverse ++ [key]) = (key :: (latest ++ [key])).reverse := by simp
    rw [hround, List.isChain_reverse]
    exact hdemands.prefix ⟨older, by simp⟩

theorem turn (hp : p.Propagates) (h : m.Traced p) (hm : p.Meets m) (hturn : p.Turn m m') : m'.Traced p := by
  have hkept : ∀ key a, m.state.found? key = some a → m'.state.found? key = some a := fun _ _ => hturn.found? hm
  have hexplained := h.explained
  cases hturn with
  | finish hact _ | want hact _ => exact h.congr hact rfl hkept (fun _ _ hserves => False.elim hserves) trivial
  | sighted hact hsight =>
    refine h.congr hact rfl hkept ?_ trivial
    intro w _ hserves
    obtain ⟨rfl, rfl⟩ := hserves
    exact hsight
  | @given name height requester a hact hsight =>
    refine h.congr hact rfl hkept ?_ trivial
    intro w _ hserves
    obtain ⟨rfl, rfl⟩ := hserves
    change p.seen? m.state.found? w.name (p.height w.key w.side) = some a
    rw [Problem.seen?, hsight]
  | absent hact _ | unbound hact _ _ _ => exact h.congr hact rfl hkept (fun _ _ _ => trivial) trivial
  | known hact hfound => exact h.congr hact rfl hkept (fun _ _ hfinds => hfinds.seen? hfound) trivial
  | @cycle key hact hnew hcycle =>
    refine h.congr hact rfl hkept (fun _ _ _ => trivial) ?_
    obtain ⟨latest, older, hsplit, hpath⟩ := p.exists_cyclePath_eq hcycle
    refine ⟨key, latest.reverse, hpath, m, older, hm, hact, ?_, h.circuit hm.orderly hact hsplit⟩
    rw [hsplit, List.reverse_reverse]
  | @begin key binding hact hnew hfree hstored =>
    have hbinding := p.binding?_of_stored? (hm.orderly.sought key hact) hstored
    exact h.congr hact rfl hkept (fun _ _ hfinds => hfinds) (.inl ⟨binding, hbinding, .refl⟩)
  | @done key result hact =>
    rw [hact] at hexplained
    cases result with
    | ok a => exact h.congr hact rfl hkept (fun _ _ hfinds => hfinds.seen? (by simp [reply, State.found?_pop_ok])) trivial
    | error e => exact h.congr hact rfl hkept (fun _ _ _ => trivial) (hexplained.genuine hp)
  | @remark key text rest hact =>
    rw [hact] at hexplained
    have hreaches := (hexplained.reaches (by simp [Recipe.fault])).tail (.remark text rest)
    exact h.congr hact rfl hkept (fun _ _ hfinds => hfinds) (.inl hreaches)
  | @hasPrev key name rest hact =>
    rw [hact] at hexplained
    have hreaches := (hexplained.reaches (by simp [Recipe.fault])).tail (.hasPrev name rest)
    exact h.congr hact rfl hkept (fun _ _ hfinds => hfinds) (.inl hreaches)
  | ask hact => exact h.ask hact
  | resume hact hwaiting => exact h.resume hp hact hwaiting
  | keep hact hwaiting => exact h.congr hact rfl hkept (by simp [hwaiting]) trivial
  | fail hact hwaiting =>
    rw [hact] at hexplained
    exact h.congr hact rfl hkept (by simp [hwaiting]) hexplained

end Moment.Traced

namespace Problem

variable {p : Problem α} (hp : p.Propagates) {m m' : Moment α}

include hp

theorem Meets.traced (h : p.Meets m) : m.Traced p := by
  have hstart : p.start.Traced p := ⟨List.isChain_nil, by simp [start], by simp [start], trivial⟩
  exact Leads.keeps h (.refl _) (fun hm hturn htraced => htraced.turn hp hm hturn) hstart

theorem Turn.backed (hturn : p.Turn m m') (hm : p.Meets m) (h : p.Backed m.state.found?) : p.Backed m'.state.found? := by
  cases hturn with
  | @done key result hact =>
    have hexplained := (hm.traced hp).explained
    rw [hact] at hexplained
    refine h.pop fun a hresult => ?_
    subst hresult
    obtain ⟨depth, hdepth⟩ := h
    exact ⟨depth + 1, (hexplained.reaches (by simp [Recipe.fault])).settled? hdepth⟩
  | _ => exact h

/-- Whatever the solver has in its memo is what evaluation without a memo gives. -/
theorem Meets.backed (h : p.Meets m) : p.Backed m.state.found? := by
  induction h with
  | refl => exact ⟨0, by simp [start, State.found?]⟩
  | tail hway hnext ih => exact (turn_iff.2 hnext).backed hp hway ih

end Problem

/-- A cycle that is reported is one. The path shows bindings of the platform in a circle, all of them different. At some moment
of the run they are the latest that are running, the first one is demanded once more, and the recipe of each, on the values
it was answered with, looks up the next. So no evaluation without a memo ends for any of them, in a value or in a fault. -/
theorem reported_cycle_is_real {chain : List (Overlay α)} (hchain : ∀ o ∈ chain, o.Propagates) {platform : Platform}
    {base : NameMap α} {path : List String} (h : apply chain platform base = .error (.cycle path)) :
    let p : Problem α := ⟨platform, base, stack chain⟩
    ∃ first others, path = (first :: (others ++ [first])).map (fun key => (p.scope key).frame) ∧
      (∃ m older, p.Meets m ∧ m.activity = .force first ∧ m.state.running = others.reverse ++ first :: older ∧
        p.Circuit m.state.found? first others) ∧
      ∀ key ∈ first :: others, ∀ depth, p.settled? depth key = none := by
  intro p
  have hp : p.Propagates := Problem.propagates_stack hchain platform base
  obtain ⟨last, result, hlast, hended, hsolve⟩ := p.course_ends
  have hmap : result.map NameMap.ofList = .error (.cycle path) := (congrArg Prod.fst hsolve).symm.trans h
  obtain rfl : result = .error (.cycle path) := by
    cases result with
    | ok found => cases hmap
    | error e => cases hmap; rfl
  have hexplained := (hlast.traced hp).explained
  rw [hended] at hexplained
  obtain ⟨first, others, hpath, m, older, hm, hact, hrunning, hcircuit⟩ := hexplained
  refine ⟨first, others, hpath, ⟨m, older, hm, hact, hrunning, hcircuit⟩, ?_⟩
  intro key hkey depth
  exact hcircuit.settled?_eq_none (hm.backed hp) hkey depth

/-- Two overlays of one name whose definitions need each other, and a definition that leads there. -/
def entwined : List (Overlay Nat) :=
  [(((new "site").set "lib" 2).bind "app" fun _ => .demand "lib" fun n => .demand "tool" fun k => .value (n + k)).bind
      "tool" fun _ => .demand "app" fun n => .value (n * 2),
    ((new "site").bind "app" fun _ => .demandPrev "app" fun n => .value (n + 1)).bind "all" fun _ =>
      .demand "app" fun n => .value n]

theorem propagates_entwined : ∀ o ∈ entwined, o.Propagates := by
  have hvalue : ∀ (scope : Scope) (n : Nat), (Recipe.value n).Propagates scope := Recipe.propagates_value
  intro o ho
  simp only [entwined, List.mem_cons, List.not_mem_nil, or_false] at ho
  rcases ho with rfl | rfl
  · refine (((each_new _ "site").bindWith (fun s => hvalue s 2) "lib").bindWith (fun s => ?_) "app").bindWith
      (fun s => ?_) "tool"
    · exact Recipe.propagates_demand (fun n => Recipe.propagates_demand (fun k => hvalue s (n + k)) "tool") "lib"
    · exact Recipe.propagates_demand (fun n => hvalue s (n * 2)) "app"
  · refine ((each_new _ "site").bindWith (fun s => ?_) "app").bindWith (fun s => ?_) "all"
    · exact Recipe.propagates_demandPrev (fun n => hvalue s (n + 1)) "app"
    · exact Recipe.propagates_demand (fun n => hvalue s n) "app"

/-- Two different bindings look the same in the path, and the definition that led there is not in it. -/
theorem entwined_cycle_is_real :
    let p : Problem Nat := ⟨⟨"x86_64-linux"⟩, .empty, stack entwined⟩
    p.settled? 1 ⟨0, "lib"⟩ = some (.ok 2) ∧ (∀ o ∈ entwined, o.Propagates) ∧
    apply entwined ⟨"x86_64-linux"⟩ .empty = .error (.cycle ["site:app", "site:app", "site:tool", "site:app"]) ∧
    ∃ first others,
      ["site:app", "site:app", "site:tool", "site:app"] =
        (first :: (others ++ [first])).map (fun key => (p.scope key).frame) ∧
      (∃ m older, p.Meets m ∧ m.activity = .force first ∧ m.state.running = others.reverse ++ first :: older ∧
        p.Circuit m.state.found? first others) ∧
      ∀ key ∈ first :: others, ∀ depth, p.settled? depth key = none := by
  have hfault : apply entwined ⟨"x86_64-linux"⟩ .empty =
      .error (.cycle ["site:app", "site:app", "site:tool", "site:app"]) := by decide +kernel
  exact ⟨by decide +kernel, propagates_entwined, hfault, reported_cycle_is_real propagates_entwined hfault⟩

end HostFleet.Overlay
