import HostFleet.Proofs.Overlay.Balance
import HostFleet.Proofs.Overlay.Grouping

/-!
# Missing packages and who asked for them

Whether a name is there below a height is found out in three ways: a recipe asks for it with `hasPrev`, a look-up goes down
the layers, and the names of a set are collected before it is solved. All three agree at every height. So the names that are
looked up for the finished set are always there, a binding that a look-up has found is always there to be run, and the only
look-up that can miss is one that a recipe makes. At every moment of a run, a fault that reports a missing package was met by
the recipe that it names.
-/

namespace HostFleet.Overlay

variable {α : Type}

/-! ### The set below a height -/

namespace Problem

variable (p : Problem α)

/-- A look-up below a height goes on to a visible binding of the platform, or takes a value of the base. -/
def Hits (name : String) (height : Nat) : Prop :=
  (∃ key : Key, (key.name = name ∧ key.layer < height ∧ (p.binding? key).isSome) ∧
    ∀ force requester state, p.lookup force name height requester state = force key state) ∨
  ∃ a, p.base.get? name = some a ∧ ∀ force requester state, p.lookup force name height requester state = (.ok a, state)

/-- A look-up below a height fails itself and blames the requester. -/
def Misses (name : String) (height : Nat) : Prop :=
  ∀ force requester state, p.lookup force name height requester state = (.error (.missing name requester), state)

theorem defined_iff_mem_names_take {name : String} {height : Nat} :
    p.defined height name = true ↔ name ∈ (Problem.mk p.platform p.base (p.layers.take height)).names := by
  simp only [mem_names_iff, defined, List.take_length]

theorem hits_of_defined {name : String} {height : Nat} (h : p.defined height name = true) : p.Hits name height := by
  rw [defined_eq_true_iff] at h
  cases hsight : p.sight name height with
  | bound key =>
    refine .inl ⟨key, p.sight_eq_bound hsight, fun force requester state => ?_⟩
    rw [lookup_eq_sight, hsight]
  | given a =>
    refine .inr ⟨a, p.sight_eq_given hsight, fun force requester state => ?_⟩
    rw [lookup_eq_sight, hsight]
  | absent => exact absurd hsight h

theorem misses_of_not_defined {name : String} {height : Nat} (h : p.defined height name = false) : p.Misses name height := by
  have habsent : p.sight name height = .absent := by
    by_contra hne
    rw [p.defined_eq_true_iff.2 hne] at h
    simp at h
  intro force requester state
  rw [lookup_eq_sight, habsent]

/-- A look-up cannot do both. -/
theorem Hits.not_misses {name : String} {height : Nat} (h : p.Hits name height) : ¬ p.Misses name height := by
  intro hmiss
  rcases h with ⟨key, -, hgoes⟩ | ⟨a, -, hgives⟩
  · let elsewhere : Key → Step α α := fun _ state => (.error (.cycle []), state)
    have hsame := (hgoes elsewhere "" {}).symm.trans (hmiss elsewhere "" {})
    simp [elsewhere] at hsame
  · have hsame := (hgives (p.force 0) "" {}).symm.trans (hmiss (p.force 0) "" {})
    simp at hsame

theorem defined_iff_hits {name : String} {height : Nat} : p.defined height name = true ↔ p.Hits name height := by
  refine ⟨p.hits_of_defined, fun hhits => ?_⟩
  by_contra hnot
  exact hhits.not_misses p (p.misses_of_not_defined (Bool.eq_false_iff.2 hnot))

theorem not_defined_iff_misses {name : String} {height : Nat} : p.defined height name = false ↔ p.Misses name height := by
  refine ⟨p.misses_of_not_defined, fun hmisses => Bool.eq_false_iff.2 fun hdefined => ?_⟩
  exact (p.hits_of_defined hdefined).not_misses p hmisses

/-! ### Faults and the recipes that met them -/

/-- A fault that reports a missing package names a recipe which, at some moment of the run, looks the package up where it is
not to be seen. -/
def Attributed : Fault → Prop
  | .missing package requestedBy => ∃ m key side next, p.Meets m ∧ m.activity = .cook key (.ask side package next) ∧
      (p.binding? key).isSome ∧ requestedBy = (p.scope key).frame ∧ p.sight package (p.height key side) = .absent
  | _ => True

end Problem

theorem Recipe.passes_ask {allowed : Fault → Prop} {side : Side} {name : String} {next : Except Fault α → Recipe α}
    (h : (ask side name next).Passes allowed) :
    (∀ a, (next (.ok a)).Passes allowed) ∧ ∀ e, allowed e → (next (.error e)).Passes allowed := by
  cases side with
  | below => exact h
  | finished => exact h

/-- What the solver is at can end in attributed faults only. -/
def Activity.Attributed (p : Problem α) : Activity α → Prop
  | .seek name height requester => p.sight name height = .absent → p.Attributed (.missing name requester)
  | .cook _ rest => rest.Passes p.Attributed
  | .answer (.error e) => p.Attributed e
  | .ended (.error e) => p.Attributed e
  | _ => True

structure Moment.Attributed (p : Problem α) (m : Moment α) : Prop where
  activity : m.activity.Attributed p
  waiting : ∀ w ∈ m.waiting,
    (∀ a, (w.next (.ok a)).Passes p.Attributed) ∧ ∀ e, p.Attributed e → (w.next (.error e)).Passes p.Attributed
  todo : ∀ name ∈ m.todo, name ∈ p.names

namespace Moment.Attributed

variable {p : Problem α} {m m' : Moment α}

theorem want (h : m.Attributed p) {name : String} {rest : List String} (htodo : m.todo = name :: rest) :
    Moment.Attributed p
      { m with activity := .seek name p.layers.length "<final>", wanted := name, todo := rest } := by
  have htodo' := h.todo
  rw [htodo] at htodo'
  obtain ⟨hname, hrest⟩ := List.forall_mem_cons.1 htodo'
  refine ⟨fun habsent => ?_, h.waiting, hrest⟩
  rw [p.mem_names_iff, p.defined_eq_true_iff] at hname
  exact absurd habsent hname

theorem ask (h : m.Attributed p) (hm : p.Meets m) {key : Key} {side : Side} {name : String}
    {next : Except Fault α → Recipe α} (hact : m.activity = .cook key (.ask side name next)) :
    (p.asking m key side name next).Attributed p := by
  have hbound : (p.binding? key).isSome := hm.orderly.bound key (by simp [active, hact])
  have hpasses := h.activity
  rw [hact] at hpasses
  refine ⟨fun habsent => ?_, List.forall_mem_cons.2 ⟨Recipe.passes_ask hpasses, h.waiting⟩, h.todo⟩
  exact ⟨m, key, side, next, hm, hact, hbound, rfl, habsent⟩

theorem resume (h : m.Attributed p) {result : Except Fault α} {w : Waiting α} {others : List (Waiting α)}
    (hact : m.activity = .answer result) (hwaiting : m.waiting = w :: others) :
    Moment.Attributed p { m with activity := .cook w.key (w.next result), waiting := others } := by
  obtain ⟨hactivity, hall, htodo⟩ := h
  rw [hact] at hactivity
  rw [hwaiting] at hall
  obtain ⟨⟨hvalue, hfault⟩, hothers⟩ := List.forall_mem_cons.1 hall
  refine ⟨?_, hothers, htodo⟩
  cases result with
  | ok a => exact hvalue a
  | error e => exact hfault e hactivity

theorem turn (hrecipes : ∀ key binding, p.stored? key = some binding →
      (binding.recipe (p.scope key)).Passes p.Attributed)
    (h : m.Attributed p) (hm : p.Meets m) (hturn : p.Turn m m') : m'.Attributed p := by
  have hactivity := h.activity
  cases hturn with
  | finish => exact ⟨trivial, h.waiting, h.todo⟩
  | want _ htodo => exact h.want htodo
  | sighted | given | known | keep => exact ⟨trivial, h.waiting, h.todo⟩
  | absent hact hsight =>
    rw [hact] at hactivity
    exact ⟨hactivity hsight, h.waiting, h.todo⟩
  | cycle => exact ⟨trivial, h.waiting, h.todo⟩
  | @unbound key hact _ _ hstored =>
    obtain ⟨binding, hbinding⟩ := Option.isSome_iff_exists.1 (hm.orderly.sought key hact)
    simp [p.stored?_of_binding? hbinding] at hstored
  | begin _ _ _ hbinding => exact ⟨hrecipes _ _ hbinding, h.waiting, h.todo⟩
  | @done key result hact =>
    rw [hact] at hactivity
    refine ⟨?_, h.waiting, h.todo⟩
    cases result with
    | ok a => trivial
    | error e => exact hactivity e rfl
  | remark hact =>
    rw [hact] at hactivity
    exact ⟨hactivity, h.waiting, h.todo⟩
  | hasPrev hact =>
    rw [hact] at hactivity
    exact ⟨hactivity _, h.waiting, h.todo⟩
  | ask hact => exact h.ask hm hact
  | resume hact hwaiting => exact h.resume hact hwaiting
  | fail hact _ =>
    rw [hact] at hactivity
    exact ⟨hactivity, h.waiting, h.todo⟩

end Moment.Attributed

namespace Problem

variable {p : Problem α} {m : Moment α}

theorem Meets.attributed (hrecipes : ∀ key binding, p.stored? key = some binding →
      (binding.recipe (p.scope key)).Passes p.Attributed) (h : p.Meets m) : m.Attributed p := by
  have hstart : p.start.Attributed p := ⟨trivial, by simp [start], fun _ hname => hname⟩
  exact Leads.keeps h (.refl _) (fun hm hturn hattributed => hattributed.turn hrecipes hm hturn) hstart

theorem attributed_of_solve_eq_error (hrecipes : ∀ key binding, p.stored? key = some binding →
      (binding.recipe (p.scope key)).Passes p.Attributed) {e : Fault} (h : p.solve.1 = .error e) : p.Attributed e := by
  obtain ⟨last, result, hlast, hended, hsolve⟩ := p.course_ends
  rw [hsolve, map_eq_error_iff] at h
  have hactivity := (hlast.attributed hrecipes).activity
  rw [hended, h] at hactivity
  exact hactivity

theorem passes_attributed_of_candid {chain : List (Overlay α)} (hchain : ∀ o ∈ chain, o.Candid) (platform : Platform)
    (base : NameMap α) (key : Key) (binding : Binding α)
    (hbinding : (Problem.mk platform base (stack chain)).stored? key = some binding) :
    (binding.recipe ((Problem.mk platform base (stack chain)).scope key)).Passes
      (Problem.mk platform base (stack chain)).Attributed :=
  each_stack hchain hbinding _ _ fun _ => trivial

end Problem

theorem Scope.frame_ne {text : String} (htext : ':' ∉ text.toList) (scope : Scope) : scope.frame ≠ text := by
  intro heq
  apply htext
  rw [← heq, frame]
  simp

/-- Every way to find out whether the set below a level has a name gives the same answer: `hasPrev`, the names collected from the
layers below over the base, and a look-up there, which goes on to a binding or to a value of the base if the name is there and
fails itself if not. So a missing package that a chain is reported to lack was looked up by a recipe of the platform, which the
fault names, and neither a visible layer nor the base defines it; the solver itself never asks for one in vain. -/
theorem missing_packages_are_blamed (chain : List (Overlay α)) (platform : Platform) (base : NameMap α) :
    let p : Problem α := ⟨platform, base, stack chain⟩
    (∀ level name,
      p.defined level name = (base.contains name || ((stack chain).take level).any fun layer => layer.binds platform name) ∧
      (p.defined level name = true ↔ name ∈ (Problem.mk platform base ((stack chain).take level)).names) ∧
      (p.defined level name = true ↔ p.Hits name level) ∧
      (p.defined level name = false ↔ p.Misses name level)) ∧
    ((∀ o ∈ chain, o.Candid) → ∀ package requestedBy, apply chain platform base = .error (.missing package requestedBy) →
      (∃ m key side next, p.Meets m ∧ m.activity = .cook key (.ask side package next) ∧ (p.binding? key).isSome ∧
        requestedBy = (p.scope key).frame ∧ base.get? package = none ∧
        ∀ layer < p.height key side, p.binding? ⟨layer, package⟩ = none) ∧
      requestedBy ≠ "<final>" ∧ requestedBy ≠ "<solver>") := by
  intro p
  refine ⟨fun level name => ?_, fun hcandid package requestedBy h => ?_⟩
  · exact ⟨rfl, p.defined_iff_mem_names_take, p.defined_iff_hits, p.not_defined_iff_misses⟩
  · have hattributed : p.Attributed (.missing package requestedBy) :=
      Problem.attributed_of_solve_eq_error (Problem.passes_attributed_of_candid hcandid platform base) h
    obtain ⟨m, key, side, next, hm, hact, hbound, rfl, habsent⟩ := hattributed
    obtain ⟨hbase, hlayers⟩ := p.sight_eq_absent_iff.1 habsent
    refine ⟨⟨m, key, side, next, hm, hact, hbound, rfl, hbase, hlayers⟩, ?_, ?_⟩
    · exact Scope.frame_ne (by decide) _
    · exact Scope.frame_ne (by decide) _

/-- A definition that gives up where a guard hides a package, and one that makes do without it and then looks for it itself. -/
def lacking : List (Overlay Nat) :=
  [(new "arm").bindIf "lib" (fun platform => platform.name = "aarch64-linux") fun _ => .value 1,
    ((new "site").bind "tool" fun scope => .hasPrev "lib" fun there =>
      if there then .value 2 else .fault (scope.fail "no lib")).bind "app" fun _ => .final "tool" fun
        | .ok n => .value n
        | .error _ => .demand "lib" .value]

theorem candid_lacking : ∀ o ∈ lacking, o.Candid := by
  have hvalue : ∀ (scope : Scope) (n : Nat), (Recipe.value n).Candid scope := by
    intro scope n allowed hfail e he
    simp at he
  intro o ho
  simp only [lacking, List.mem_cons, List.not_mem_nil, or_false] at ho
  rcases ho with rfl | rfl
  · exact (each_new _ "arm").bindWith (fun s => hvalue s 1) "lib"
  · refine ((each_new _ "site").bindWith (fun s allowed hfail there => ?_) "tool").bindWith (fun s allowed hfail => ?_) "app"
    · cases there with
      | true => exact hvalue s 2 allowed hfail
      | false => exact fun e he => Except.error.inj he ▸ hfail "no lib"
    · exact ⟨fun n => hvalue s n allowed hfail, fun _ _ => Recipe.candid_demand (hvalue s) "lib" allowed hfail⟩

theorem lacking_is_blamed :
    let p : Problem Nat := ⟨⟨"x86_64-linux"⟩, .empty, stack lacking⟩
    ("lib" ∉ (Problem.mk ⟨"x86_64-linux"⟩ (.empty : NameMap Nat) ((stack lacking).take 1)).names ∧ p.Misses "lib" 1) ∧
    (∀ o ∈ lacking, o.Candid) ∧ apply lacking ⟨"x86_64-linux"⟩ .empty = .error (.missing "lib" "site:app") ∧
    (∃ m key side next, p.Meets m ∧ m.activity = .cook key (.ask side "lib" next) ∧ (p.binding? key).isSome ∧
      "site:app" = (p.scope key).frame ∧ (NameMap.empty : NameMap Nat).get? "lib" = none ∧
      ∀ layer < p.height key side, p.binding? ⟨layer, "lib"⟩ = none) ∧
    "site:app" ≠ "<final>" ∧ "site:app" ≠ "<solver>" := by
  intro p
  have hfault : apply lacking ⟨"x86_64-linux"⟩ .empty = .error (.missing "lib" "site:app") := by decide +kernel
  have hhidden : p.defined 1 "lib" = false := by decide +kernel
  obtain ⟨hagree, hblamed⟩ := missing_packages_are_blamed lacking ⟨"x86_64-linux"⟩ .empty
  obtain ⟨-, hnames, -, hmisses⟩ := hagree 1 "lib"
  refine ⟨⟨fun hname => ?_, hmisses.1 hhidden⟩, candid_lacking, hfault, hblamed candid_lacking _ _ hfault⟩
  exact absurd (hnames.2 hname) (Bool.eq_false_iff.1 hhidden)

end HostFleet.Overlay
