import Mathlib.Data.List.Forall2
import HostFleet.Proofs.Overlay.Anew

/-!
# Problems that correspond

Two problems may number their layers differently, or differ in bindings that nothing looks up, and still be solved alike.
A `Correspondence` pairs keys of the one with keys of the other. Paired keys have the same recipe and the same name in
messages, what their look-ups find is paired again, and so is what the finished sets show. The solvers without a memo then
take the same steps on both sides: they find the same values, and where they fail they give the same fault, since a cycle
closes on one side exactly where it closes on the other.
-/

namespace HostFleet.Overlay

variable {α : Type}

namespace Recipe

/-- Every question of the recipe about the set below its layer is about one of the given names. -/
def AsksBelow (names : String → Prop) : Recipe α → Prop
  | .done _ => True
  | .prev name next => names name ∧ ∀ answer, (next answer).AsksBelow names
  | .final _ next => ∀ answer, (next answer).AsksBelow names
  | .hasPrev name next => names name ∧ ∀ answer, (next answer).AsksBelow names
  | .remark _ next => next.AsksBelow names

theorem AsksBelow.mono {few many : String → Prop} (hsub : ∀ name, few name → many name) {r : Recipe α}
    (h : r.AsksBelow few) : r.AsksBelow many := by
  induction r with
  | done _ => trivial
  | prev name next ih => exact ⟨hsub name h.1, fun answer => ih answer (h.2 answer)⟩
  | final name next ih => exact fun answer => ih answer (h answer)
  | hasPrev name next ih => exact ⟨hsub name h.1, fun answer => ih answer (h.2 answer)⟩
  | remark text next ih => exact ih h

/-- Answers that agree on all that a recipe may ask lead it to the same result. -/
theorem AsksBelow.result_congr {names : String → Prop} {answers answers' : Answers (Except Fault α)}
    (hprev : ∀ name, names name → answers.prev name = answers'.prev name)
    (hhas : ∀ name, names name → answers.hasPrev name = answers'.hasPrev name)
    (hfinal : ∀ name, answers.final name = answers'.final name) {r : Recipe α} (h : r.AsksBelow names) :
    r.result answers = r.result answers' := by
  induction r with
  | done result => rfl
  | prev name next ih =>
    rw [result, result, hprev name h.1]
    exact ih _ (h.2 _)
  | final name next ih =>
    rw [result, result, hfinal name]
    exact ih _ (h _)
  | hasPrev name next ih =>
    rw [result, result, hhas name h.1]
    exact ih _ (h.2 _)
  | remark text next ih => exact ih h

end Recipe

/-- Two look-ups find paired bindings, or the same value of the base, or both nothing. -/
inductive Sight.Match (paired : Key → Key → Prop) : Sight α → Sight α → Prop
  | bound {key key' : Key} (h : paired key key') : Match paired (.bound key) (.bound key')
  | given (a : α) : Match paired (.given a) (.given a)
  | absent : Match paired .absent .absent

theorem Sight.Match.eq_absent_iff {paired : Key → Key → Prop} {s s' : Sight α} (h : s.Match paired s') :
    s = .absent ↔ s' = .absent := by
  cases h <;> simp

/-- Keys of two problems are paired so that both problems are solved alike. -/
structure Correspondence (p p' : Problem α) (paired : Key → Key → Prop) : Prop where
  final : ∀ name, (p.sight name p.layers.length).Match paired (p'.sight name p'.layers.length)
  eq_iff : ∀ {key key' other other'}, paired key key' → paired other other' → (key = other ↔ key' = other')
  frame : ∀ {key key'}, paired key key' → (p.scope key).frame = (p'.scope key').frame
  recipe : ∀ {key key'}, paired key key' → ∃ binding binding',
    p.binding? key = some binding ∧ p'.binding? key' = some binding' ∧
    binding'.recipe (p'.scope key') = binding.recipe (p.scope key) ∧
    (binding.recipe (p.scope key)).AsksBelow fun name =>
      (p.sight name key.layer).Match paired (p'.sight name key'.layer)

namespace Correspondence

variable {p p' : Problem α} {paired : Key → Key → Prop} (h : Correspondence p p' paired)

include h

/-! ### Cycles -/

theorem mem_iff {running running' : List Key} (hrunning : List.Forall₂ paired running running') {key key' : Key}
    (hkey : paired key key') : key ∈ running ↔ key' ∈ running' := by
  induction hrunning with
  | nil => simp
  | cons hfirst _ ih => rw [List.mem_cons, List.mem_cons, h.eq_iff hkey hfirst, ih]

/-- The definitions that run above a key have the same names on both sides. -/
theorem map_frame_takeWhile {running running' : List Key} (hrunning : List.Forall₂ paired running running')
    {key key' : Key} (hkey : paired key key') :
    (running.takeWhile (· ≠ key)).map (fun k => (p.scope k).frame) =
      (running'.takeWhile (· ≠ key')).map fun k => (p'.scope k).frame := by
  induction hrunning with
  | nil => rfl
  | @cons first first' rest rest' hfirst _ ih =>
    have hsame : first = key ↔ first' = key' := h.eq_iff hfirst hkey
    by_cases hstop : first = key
    · have hstop' : first' = key' := hsame.1 hstop
      simp [hstop, hstop']
    · have hstop' : first' ≠ key' := fun heq => hstop (hsame.2 heq)
      simp only [List.takeWhile_cons, ne_eq, hstop, hstop', not_false_eq_true, decide_true, if_true, List.map_cons,
        h.frame hfirst]
      exact congrArg _ ih

theorem cyclePath_eq {running running' : List Key} (hrunning : List.Forall₂ paired running running') {key key' : Key}
    (hkey : paired key key') : p.cyclePath running key = p'.cyclePath running' key' := by
  simp only [Problem.cyclePath, List.map_cons, List.map_append, List.map_reverse, List.map_nil,
    h.map_frame_takeWhile hrunning hkey, h.frame hkey]

/-! ### Look-ups and evaluations -/

omit h in
theorem find_eq {evaluate evaluate' : Key → Except Fault α}
    (hevaluate : ∀ key key', paired key key' → evaluate key = evaluate' key') {name : String} {height height' : Nat}
    (hsight : (p.sight name height).Match paired (p'.sight name height')) (requester : String) :
    p.find evaluate name height requester = p'.find evaluate' name height' requester := by
  unfold Problem.find
  generalize p.sight name height = s at hsight
  generalize p'.sight name height' = s' at hsight
  cases hsight with
  | bound hkey => exact hevaluate _ _ hkey
  | given a => rfl
  | absent => rfl

omit h in
theorem defined_eq {name : String} {height height' : Nat}
    (hsight : (p.sight name height).Match paired (p'.sight name height')) :
    p.defined height name = p'.defined height' name := by
  rw [Bool.eq_iff_iff, p.defined_eq_true_iff, p'.defined_eq_true_iff, ne_eq, ne_eq, hsight.eq_absent_iff]

/-- Paired bindings are evaluated alike while paired bindings are running. -/
theorem forceAnew_eq {running running' : List Key} (hrunning : List.Forall₂ paired running running') {key key' : Key}
    (hkey : paired key key') : p.forceAnew running key = p'.forceAnew running' key' := by
  fun_induction Problem.forceAnew p running key generalizing running' key' with
  | case1 running key hcycle =>
    rw [p'.forceAnew_of_mem ((h.mem_iff hrunning hkey).1 hcycle), h.cyclePath_eq hrunning hkey]
  | case2 running key hcycle hbinding =>
    obtain ⟨found, -, hfound, -⟩ := h.recipe hkey
    simp [p.stored?_of_binding? hfound] at hbinding
  | case3 running key hcycle binding hbinding hless ih =>
    obtain ⟨found, found', hfound, hfound', hrecipe, hasks⟩ := h.recipe hkey
    obtain rfl : binding = found := Option.some.inj (hbinding.symm.trans (p.stored?_of_binding? hfound))
    have hfree : key' ∉ running' := fun hmem => hcycle ((h.mem_iff hrunning hkey).2 hmem)
    have hinner : ∀ k k', paired k k' → p.forceAnew (key :: running) k = p'.forceAnew (key' :: running') k' :=
      fun k k' hk => ih k (.cons hkey hrunning) hk
    rw [p'.forceAnew_of_stored? hfree (p'.stored?_of_binding? hfound'), hrecipe]
    refine hasks.result_congr (fun name hsight => ?_) (fun name hsight => defined_eq hsight) fun name => ?_
    · simp only [Problem.answers, h.frame hkey]
      exact find_eq hinner hsight _
    · simp only [Problem.answers, h.frame hkey]
      exact find_eq hinner (h.final name) _

/-! ### Solutions -/

theorem names_eq : p.names = p'.names := by
  refine NameMap.names_eq_of_mem_iff fun name => ?_
  change name ∈ p.names ↔ name ∈ p'.names
  rw [p.mem_names_iff, p'.mem_names_iff, defined_eq (h.final name)]

theorem collectAnew_eq (names : List String) : p.collectAnew names = p'.collectAnew names := by
  have hforce : ∀ key key', paired key key' → p.forceAnew [] key = p'.forceAnew [] key' :=
    fun _ _ hkey => h.forceAnew_eq .nil hkey
  induction names with
  | nil => rfl
  | cons name rest ih => rw [Problem.collectAnew, Problem.collectAnew, find_eq hforce (h.final name), ih]

theorem solveAnew_eq : p.solveAnew = p'.solveAnew := by
  rw [Problem.solveAnew, Problem.solveAnew, h.names_eq, h.collectAnew_eq]

end Correspondence

end HostFleet.Overlay
