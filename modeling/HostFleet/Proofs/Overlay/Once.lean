import HostFleet.Proofs.Overlay.Balance
import HostFleet.Proofs.Overlay.Relay

/-!
# How often recipes run

Only values are kept, not faults. So a recipe that ended in a fault may be run again, for a second recipe that can do without
it, but one that gave a value never is. Where every recipe passes a fault on at once there is no second attempt either: after
the first fault nothing starts any more, and until then every binding that was started is running or has its value.
-/

namespace HostFleet.Overlay

variable {α : Type}

/-- Every fault that a recipe is answered with is at once its own result. -/
def Recipe.Relays : Recipe α → Prop
  | .done _ => True
  | .prev _ next => (∀ e, next (.error e) = fault e) ∧ ∀ a, (next (.ok a)).Relays
  | .final _ next => (∀ e, next (.error e) = fault e) ∧ ∀ a, (next (.ok a)).Relays
  | .hasPrev _ next => ∀ b, (next b).Relays
  | .remark _ next => next.Relays

theorem Recipe.Relays.yieldsTo {r : Recipe α} (h : r.Relays) (kind : Fault → Prop) : r.YieldsTo kind := by
  have hanswer : ∀ {next : Except Fault α → Recipe α}, (∀ e, next (.error e) = fault e) →
      (∀ a, (next (.ok a)).YieldsTo kind) → ∀ answer, (next answer).YieldsTo kind := by
    intro next hfault hnext answer
    cases answer with
    | ok a => exact hnext a
    | error e =>
      rw [hfault]
      trivial
  induction r with
  | done _ => trivial
  | prev name next ih => exact ⟨fun e _ => h.1 e, hanswer h.1 fun a => ih _ (h.2 a)⟩
  | final name next ih => exact ⟨fun e _ => h.1 e, hanswer h.1 fun a => ih _ (h.2 a)⟩
  | hasPrev name next ih => exact fun b => ih b (h b)
  | remark text next ih => exact ih h

def Relays (o : Overlay α) : Prop := o.Each fun _ r => r.Relays

/-- How often the binding of a key has been started. -/
def State.starts (state : State α) (key : Key) : Nat := state.journal.count (.started key)

namespace State

theorem starts_push (state : State α) (key other : Key) :
    (state.push key).starts other = state.starts other + if key = other then 1 else 0 := by
  by_cases hkey : key = other
  · simp [starts, journal, push, hkey]
  · simp [starts, journal, push, hkey]

theorem starts_remark (state : State α) (text : String) (key : Key) : (state.remark text).starts key = state.starts key := by
  simp [starts, journal, remark]

end State

namespace Problem

/-- Every binding of the platform has a recipe that passes faults on at once. -/
def Relays (p : Problem α) : Prop := ∀ key binding, p.stored? key = some binding → (binding.recipe (p.scope key)).Relays

theorem relays_stack {chain : List (Overlay α)} (hchain : ∀ o ∈ chain, o.Relays) (platform : Platform) (base : NameMap α) :
    (Problem.mk platform base (stack chain)).Relays :=
  fun _ _ hbinding => each_stack hchain hbinding _

variable {p : Problem α} {m m' : Moment α}

/-! ### Values stay and are not looked for again -/

/-- A step starts the binding it is about to evaluate, if that has no value and is not running, and nothing else. -/
theorem Turn.starts (hturn : p.Turn m m') (key : Key) :
    m'.state.starts key = m.state.starts key ∨
      m.activity = .force key ∧ m.state.found? key = none ∧ key ∉ m.state.running := by
  cases hturn with
  | @begin other binding hact hnew hfree hbinding =>
    by_cases hkey : other = key
    · subst hkey
      exact .inr ⟨hact, hnew, hfree⟩
    · exact .inl (by simp [State.starts_push, hkey])
  | @remark other text rest hact => exact .inl (m.state.starts_remark text key)
  | _ => exact .inl rfl

theorem Leads.starts_of_found? (h : p.Leads m m') (hm : p.Meets m) {key : Key} {a : α}
    (hfound : m.state.found? key = some a) : m'.state.starts key = m.state.starts key := by
  have hkept : m'.state.found? key = some a ∧ m'.state.starts key = m.state.starts key := by
    induction h with
    | refl => exact ⟨hfound, rfl⟩
    | tail hway hnext ih =>
      obtain ⟨hfound₁, hstarts₁⟩ := ih
      have hturn := turn_iff.2 hnext
      refine ⟨hturn.found? (Leads.trans hm hway) hfound₁, ?_⟩
      rcases hturn.starts key with hsame | ⟨-, hnone, -⟩
      · rw [hsame, hstarts₁]
      · simp [hfound₁] at hnone
  exact hkept.2

/-- A binding whose recipe has come to a value is not started any more. -/
theorem Leads.starts_of_done (h : p.Leads m m') (hm : p.Meets m) {key : Key} {a : α}
    (hact : m.activity = .cook key (.done (.ok a))) : m'.state.starts key = m.state.starts key := by
  rcases Relation.ReflTransGen.cases_head h with rfl | ⟨m₁, hnext, hrest⟩
  · rfl
  · have hturn : p.Turn m (m.reply (.ok a, m.state.pop key (.ok a))) := .done hact
    obtain rfl : m.reply (.ok a, m.state.pop key (.ok a)) = m₁ := Option.some.inj (hturn.next_eq.symm.trans hnext)
    have hfound : (m.state.pop key (.ok a)).found? key = some a := by rw [State.found?_pop_ok, if_pos rfl]
    exact Leads.starts_of_found? hrest (Leads.tail hm hturn) hfound

end Problem

/-! ### A fault ends everything -/

/-- No binding was started twice, and while there is no fault every binding that was started is running or has a value. -/
structure Moment.Once (m : Moment α) : Prop where
  most : ∀ key, m.state.starts key ≤ 1
  accounted : ¬ m.activity.Faulty (fun _ => True) → ∀ key, 0 < m.state.starts key →
    key ∈ m.state.running ∨ ∃ a, m.state.found? key = some a

namespace Moment.Once

variable {p : Problem α} {m m' : Moment α}

theorem congr (h : m.Once) (hstarts : ∀ key, m'.state.starts key = m.state.starts key)
    (hrunning : m'.state.running = m.state.running) (hmemo : m'.state.memo = m.state.memo)
    (hfaulty : m.activity.Faulty (fun _ => True) → m'.activity.Faulty fun _ => True) : m'.Once where
  most key := hstarts key ▸ h.most key
  accounted hsound key hstarted := by
    rw [hstarts] at hstarted
    rw [hrunning, State.found?, hmemo]
    exact h.accounted (fun hfault => hsound (hfaulty hfault)) key hstarted

theorem begin (h : m.Once) {key : Key} {r : Recipe α} (hact : m.activity = .force key)
    (hnew : m.state.found? key = none) (hfree : key ∉ m.state.running) :
    Moment.Once { m with activity := .cook key r, state := m.state.push key } := by
  have hsound : ¬ m.activity.Faulty (fun _ => True) := by simp [hact, Activity.Faulty]
  have hfirst : m.state.starts key = 0 := by
    by_contra hne
    rcases h.accounted hsound key (by omega) with hrunning | ⟨a, hfound⟩
    · exact hfree hrunning
    · simp [hnew] at hfound
  refine ⟨fun other => ?_, fun _ other hstarted => ?_⟩
  · change (m.state.push key).starts other ≤ 1
    rw [State.starts_push]
    split
    · rename_i heq
      rw [← heq, hfirst]
    · exact h.most other
  · change other ∈ key :: m.state.running ∨ ∃ a, m.state.found? other = some a
    by_cases hkey : key = other
    · exact .inl (hkey ▸ List.mem_cons_self)
    · have hbefore : 0 < m.state.starts other := by
        simpa [State.starts_push, hkey] using hstarted
      exact (h.accounted hsound other hbefore).imp_left (List.mem_cons_of_mem key)

theorem done (h : m.Once) (horderly : m.Orderly p) {key : Key} {result : Except Fault α}
    (hact : m.activity = .cook key (.done result)) : (m.reply (result, m.state.pop key result)).Once := by
  refine ⟨h.most, fun hsound other hstarted => ?_⟩
  cases result with
  | error e => exact absurd trivial hsound
  | ok a =>
    have hrunning : m.state.running = key :: m.waiting.map Waiting.key := by
      rw [horderly.running]
      simp [active, hact]
    change other ∈ m.state.running.tail ∨ ∃ b, (m.state.pop key (.ok a)).found? other = some b
    rw [State.found?_pop_ok]
    by_cases hkey : key = other
    · exact .inr ⟨a, if_pos hkey⟩
    · rw [if_neg hkey]
      have hbefore := h.accounted (by simp [hact, Activity.Faulty]) other hstarted
      rw [hrunning] at hbefore ⊢
      refine hbefore.imp_left fun hmem => ?_
      rcases List.mem_cons.1 hmem with heq | htail
      · exact absurd heq.symm hkey
      · exact htail

theorem turn (h : m.Once) (horderly : m.Orderly p) (hyields : m.YieldsTo fun _ => True) (hturn : p.Turn m m') : m'.Once := by
  have hfaulty := hyields.faulty hturn
  cases hturn with
  | begin hact hnew hfree _ => exact h.begin hact hnew hfree
  | done hact => exact h.done horderly hact
  | @remark key text rest hact => exact h.congr (m.state.starts_remark text) rfl rfl hfaulty
  | _ => exact h.congr (fun _ => rfl) rfl rfl hfaulty

end Moment.Once

namespace Problem

variable {p : Problem α} (hp : p.Relays) {m : Moment α}

include hp

theorem Meets.once (h : p.Meets m) : m.Once := by
  have hyields : p.YieldsTo fun _ => True := fun key binding hbinding => (hp key binding hbinding).yieldsTo _
  refine Leads.keeps h (.refl _) (fun hm hturn honce => honce.turn hm.orderly (hm.yieldsTo hyields) hturn) ⟨?_, ?_⟩
  · intro key
    simp [start, State.starts, State.journal]
  · intro _ key hstarted
    simp [start, State.starts, State.journal] at hstarted

end Problem

/-- A recipe that gave a value is not started again in the run, whatever the other recipes do. If all recipes pass faults on
at once, none is started twice, whether the run ends in a set or in a fault. -/
theorem recipes_start_once (chain : List (Overlay α)) (platform : Platform) (base : NameMap α) :
    let p : Problem α := ⟨platform, base, stack chain⟩
    (∀ m key a, p.Meets m → m.activity = .cook key (.done (.ok a)) →
      (∀ m', p.Leads m m' → m'.state.journal.count (.started key) = m.state.journal.count (.started key)) ∧
      p.solve.2.journal.count (.started key) = m.state.journal.count (.started key)) ∧
    ((∀ o ∈ chain, o.Relays) → ∀ key, p.solve.2.journal.count (.started key) ≤ 1) := by
  intro p
  obtain ⟨last, result, hlast, hended, hsolve⟩ := p.course_ends
  rw [hsolve]
  refine ⟨fun m key a hm hact => ?_, fun hchain => ?_⟩
  · have hafter : ∀ m', p.Leads m m' → m'.state.starts key = m.state.starts key :=
      fun m' hleads => hleads.starts_of_done hm hact
    exact ⟨hafter, hafter last (Problem.Leads.to_end hm hlast (Problem.next_of_ended hended))⟩
  · exact (Problem.Meets.once (Problem.relays_stack hchain platform base) hlast).most

/-- Definitions that share one of them, until one gives up. -/
def strict : List (Overlay Nat) :=
  [((new "site").set "lib" 2).bind "app" fun scope => .demand "lib" fun n => .demand "tool" fun k =>
      if n < 3 then .fault (scope.fail "lib is too old") else .value (n + k),
    (new "extra").bind "tool" fun _ => .demand "lib" fun n => .value (n + 1)]

theorem relays_strict : ∀ o ∈ strict, o.Relays := by
  intro o ho
  simp only [strict, List.mem_cons, List.not_mem_nil, or_false] at ho
  rcases ho with rfl | rfl
  · refine ((each_new _ "site").bindWith (fun _ => trivial) "lib").bindWith (fun scope => ?_) "app"
    refine ⟨fun _ => rfl, fun n => ⟨fun _ => rfl, fun k => ?_⟩⟩
    change (if n < 3 then Recipe.fault (scope.fail "lib is too old") else Recipe.value (n + k)).Relays
    split <;> trivial
  · exact (each_new _ "extra").bindWith (fun _ => ⟨fun _ => rfl, fun _ => trivial⟩) "tool"

/-- A recipe that failed at first and then gave a value, and a run without any second start. -/
theorem recovering_and_strict_start_once :
    ((recoveringProblem.onward 31 recoveringProblem.start).activity = .cook ⟨0, "b"⟩ (.done (.ok 3)) ∧
      recoveringProblem.solve.2.journal.count (.started ⟨0, "b"⟩) = 2 ∧
      (recoveringProblem.onward 31 recoveringProblem.start).state.journal.count (.started ⟨0, "b"⟩) = 2) ∧
    (∀ o ∈ strict, o.Relays) ∧
    apply strict ⟨"x86_64-linux"⟩ .empty = .error (.evaluation "site" "app" "lib is too old") ∧
    ∀ key, (Problem.mk ⟨"x86_64-linux"⟩ .empty (stack strict)).solve.2.journal.count (.started key) ≤ 1 := by
  have hact : (recoveringProblem.onward 31 recoveringProblem.start).activity = .cook ⟨0, "b"⟩ (.done (.ok 3)) := by rfl
  have hcount : (recoveringProblem.onward 31 recoveringProblem.start).state.journal.count (.started ⟨0, "b"⟩) = 2 := by
    decide +kernel
  have hlater := (recipes_start_once recovering ⟨"x86_64-linux"⟩ .empty).1 _ _ _ (.onward 31 _) hact
  have hstrict := (recipes_start_once strict ⟨"x86_64-linux"⟩ .empty).2 relays_strict
  exact ⟨⟨hact, hlater.2.trans hcount, hcount⟩, relays_strict, by decide +kernel, hstrict⟩

end HostFleet.Overlay
