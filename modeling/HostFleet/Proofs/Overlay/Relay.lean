import HostFleet.Proofs.Overlay.Course

/-!
# Faults that are passed on

A recipe may recover from some faults and give way to others. If every recipe of a problem gives way to the faults of a kind,
then such a fault, once it has come up, goes through all recipes that wait and ends the run: no value can come after it.
-/

namespace HostFleet.Overlay

variable {α : Type}

/-- Every fault of a kind that a recipe is answered with is at once its own result. -/
def Recipe.YieldsTo (kind : Fault → Prop) : Recipe α → Prop
  | .done _ => True
  | .prev _ next => (∀ e, kind e → next (.error e) = fault e) ∧ ∀ answer, (next answer).YieldsTo kind
  | .final _ next => (∀ e, kind e → next (.error e) = fault e) ∧ ∀ answer, (next answer).YieldsTo kind
  | .hasPrev _ next => ∀ b, (next b).YieldsTo kind
  | .remark _ next => next.YieldsTo kind

theorem Recipe.YieldsTo.of_ask {kind : Fault → Prop} {side : Side} {name : String} {next : Except Fault α → Recipe α}
    (h : (ask side name next).YieldsTo kind) :
    (∀ e, kind e → next (.error e) = fault e) ∧ ∀ answer, (next answer).YieldsTo kind := by
  cases side with
  | below => exact h
  | finished => exact h

def YieldsTo (kind : Fault → Prop) (o : Overlay α) : Prop := o.Each fun _ r => r.YieldsTo kind

/-- Every binding of the platform has a recipe that gives way to the faults of a kind. -/
def Problem.YieldsTo (p : Problem α) (kind : Fault → Prop) : Prop :=
  ∀ key binding, p.stored? key = some binding → (binding.recipe (p.scope key)).YieldsTo kind

/-- The recipes that are left to run give way to the faults of a kind. -/
structure Moment.YieldsTo (m : Moment α) (kind : Fault → Prop) : Prop where
  cook : ∀ {key rest}, m.activity = .cook key rest → rest.YieldsTo kind
  waiting : ∀ w ∈ m.waiting, (∀ e, kind e → w.next (.error e) = .fault e) ∧ ∀ answer, (w.next answer).YieldsTo kind

/-- The solver is about to pass on a fault of a kind. -/
def Activity.Faulty (kind : Fault → Prop) : Activity α → Prop
  | .answer (.error e) => kind e
  | .cook _ (.done (.error e)) => kind e
  | .ended (.error e) => kind e
  | _ => False

namespace Moment.YieldsTo

variable {p : Problem α} {kind : Fault → Prop} {m m' : Moment α}

theorem turn (hp : p.YieldsTo kind) (h : m.YieldsTo kind) (hturn : p.Turn m m') : m'.YieldsTo kind := by
  cases hturn with
  | begin hact _ _ hbinding =>
    refine ⟨fun heq => ?_, h.waiting⟩
    cases heq
    exact hp _ _ hbinding
  | remark hact =>
    have hrest := h.cook hact
    refine ⟨fun heq => ?_, h.waiting⟩
    cases heq
    exact hrest
  | hasPrev hact =>
    have hrest := h.cook hact
    refine ⟨fun heq => ?_, h.waiting⟩
    cases heq
    exact hrest _
  | ask hact => exact ⟨nofun, List.forall_mem_cons.2 ⟨(h.cook hact).of_ask, h.waiting⟩⟩
  | @resume result w others hact hwaiting =>
    have hall := h.waiting
    rw [hwaiting] at hall
    obtain ⟨hfirst, hothers⟩ := List.forall_mem_cons.1 hall
    refine ⟨fun heq => ?_, hothers⟩
    cases heq
    exact hfirst.2 result
  | _ => exact ⟨nofun, h.waiting⟩

theorem faulty (h : m.YieldsTo kind) (hturn : p.Turn m m') (hfaulty : m.activity.Faulty kind) : m'.activity.Faulty kind := by
  cases hturn with
  | @done key result hact =>
    rw [hact] at hfaulty
    cases result with
    | ok a => exact hfaulty
    | error e => exact hfaulty
  | @resume result w others hact hwaiting =>
    rw [hact] at hfaulty
    cases result with
    | ok a => exact hfaulty.elim
    | error e =>
      change (Activity.cook w.key (w.next (.error e))).Faulty kind
      rw [(h.waiting w (by simp [hwaiting])).1 e hfaulty]
      exact hfaulty
  | fail hact _ =>
    rw [hact] at hfaulty
    exact hfaulty
  | @ask key side name rest hact =>
    rw [hact] at hfaulty
    cases side <;> exact hfaulty.elim
  | finish hact _ | want hact _ | sighted hact _ | given hact _ | absent hact _ | known hact _ | cycle hact _ _
  | unbound hact _ _ _ | begin hact _ _ _ | remark hact | hasPrev hact | keep hact _ =>
    rw [hact] at hfaulty
    exact hfaulty.elim

end Moment.YieldsTo

namespace Problem

variable {p : Problem α} {kind : Fault → Prop} (hp : p.YieldsTo kind) {m m' : Moment α}

include hp

theorem Meets.yieldsTo (h : p.Meets m) : m.YieldsTo kind := by
  have hstart : p.start.YieldsTo kind := ⟨nofun, by simp [start]⟩
  exact Leads.keeps h (.refl _) (fun _ hturn hyields => Moment.YieldsTo.turn hp hyields hturn) hstart

/-- Once a fault of the kind has come up there is nothing else to the end. -/
theorem Leads.faulty (h : p.Leads m m') (hm : p.Meets m) (hfaulty : m.activity.Faulty kind) : m'.activity.Faulty kind :=
  Leads.keeps h hm (fun hmeets hturn hfault => (hmeets.yieldsTo hp).faulty hturn hfault) hfaulty

end Problem

end HostFleet.Overlay
