import HostFleet.Proofs.Overlay.Memo

/-!
# The finished set as a fixed point

The finished set is meant to be the fold of the layers over the base, where each definition is answered from the set that
the layers below it have made and from the finished set itself. `Problem.stage` is that fold, for any candidate for the
finished set, and `Problem.Solves` says that a candidate comes out of its own fold. The solver never computes the fold.
What it returns solves the equation all the same, and nothing else with the same names does: a value found at some depth
rests on values found at smaller depths only, so two solutions cannot begin to differ.
-/

namespace HostFleet.Overlay

variable {α : Type}

/-- How a set answers a look-up made by a definition. -/
def answerFrom (scope : Scope) (set : String → Option (Except Fault α)) (name : String) : Except Fault α :=
  (set name).getD (.error (.missing name scope.frame))

theorem answerFrom_eq_ok_iff {scope : Scope} {set : String → Option (Except Fault α)} {name : String} {a : α} :
    answerFrom scope set name = .ok a ↔ set name = some (.ok a) := by
  cases hset : set name <;> simp [answerFrom, hset]

namespace Problem

variable (p : Problem α)

/-- The answers to the recipe of a key from the set below its layer and a candidate for the finished set. -/
def answersFrom (below : String → Option (Except Fault α)) (solution : NameMap α) (key : Key) :
    Answers (Except Fault α) where
  prev := answerFrom (p.scope key) below
  final := answerFrom (p.scope key) fun name => (solution.get? name).map .ok
  hasPrev name := p.base.contains name || (List.range key.layer).any fun layer => (p.binding? ⟨layer, name⟩).isSome

/-- The set that the layers below a height make, each name with its result, where `solution` is taken for the finished
set. -/
def stage (p : Problem α) (solution : NameMap α) : (height : Nat) → String → Option (Except Fault α)
  | 0, name => (p.base.get? name).map .ok
  | height + 1, name =>
    match p.binding? ⟨height, name⟩ with
    | some binding =>
      let answers := p.answersFrom (p.stage solution height) solution ⟨height, name⟩
      some ((binding.recipe (p.scope ⟨height, name⟩)).result answers)
    | none => p.stage solution height name

/-- A candidate for the finished set comes out of the fold that it is used in. -/
def Solves (solution : NameMap α) : Prop :=
  ∀ name a, solution.get? name = some a → p.stage solution p.layers.length name = some (.ok a)

variable {p} {solution : NameMap α}

/-! ### The fold and look-ups -/

/-- Layers that do not bind a name leave what the set below them has. -/
theorem stage_eq_sight (name : String) (height : Nat) :
    p.stage solution height name =
      match p.sight name height with
      | .bound key => p.stage solution (key.layer + 1) key.name
      | .given a => some (.ok a)
      | .absent => none := by
  induction height with
  | zero =>
    rw [stage, sight_zero]
    cases p.base.get? name <;> rfl
  | succ height ih =>
    rw [sight_succ]
    cases hbinding : p.binding? ⟨height, name⟩ with
    | none => simp [stage, hbinding, ih]
    | some binding => simp

theorem stage_of_binding? {key : Key} {binding : Binding α} (hbinding : p.binding? key = some binding) :
    p.stage solution (key.layer + 1) key.name =
      some ((binding.recipe (p.scope key)).result (p.answersFrom (p.stage solution key.layer) solution key)) := by
  rw [stage, hbinding]

theorem prev_answersFrom_eq_ok_iff {below : String → Option (Except Fault α)} {key : Key} {name : String} {a : α} :
    (p.answersFrom below solution key).prev name = .ok a ↔ below name = some (.ok a) := by
  simp only [answersFrom, answerFrom_eq_ok_iff]

theorem final_answersFrom_eq_ok_iff {below : String → Option (Except Fault α)} {key : Key} {name : String} {a : α} :
    (p.answersFrom below solution key).final name = .ok a ↔ solution.get? name = some a := by
  simp [answersFrom, answerFrom_eq_ok_iff]

theorem hasPrev_answersFrom (below : String → Option (Except Fault α)) (solution : NameMap α) (key : Key) :
    (p.answersFrom below solution key).hasPrev = p.defined key.layer := by
  funext name
  rw [Bool.eq_iff_iff, defined_iff_exists, answersFrom, Bool.or_eq_true, NameMap.contains_eq_true_iff, List.any_eq_true]
  simp only [List.mem_range]

/-! ### Values come out of the fold -/

/-- What a look-up finds at some depth is in the fold, if the candidate has all final values of smaller depths. -/
theorem stage_of_seen? {depth : Nat}
    (hfinal : ∀ less < depth, ∀ name a, p.seen? (p.value? less) name p.layers.length = some a → solution.get? name = some a)
    {name : String} {height : Nat} {a : α} (h : p.seen? (p.value? depth) name height = some a) :
    p.stage solution height name = some (.ok a) := by
  induction depth using Nat.strongRecOn generalizing name height a with
  | ind depth ih =>
    rw [seen?] at h
    rw [stage_eq_sight]
    cases hsight : p.sight name height with
    | absent => simp [hsight] at h
    | given b => simpa [hsight] using h
    | bound key =>
      simp only [hsight] at h ⊢
      obtain ⟨less, binding, rfl, hstored, hyield⟩ := p.value?_eq_some h
      have hbinding := p.binding?_of_stored? (p.sight_eq_bound hsight).2.2 hstored
      have hless := Nat.lt_succ_self less
      have hwithin : (p.knowledge (p.value? less) key).Within
          (p.answersFrom (p.stage solution key.layer) solution key).successes := by
        refine ⟨fun hseen => ?_, fun hseen => ?_, (hasPrev_answersFrom (p.stage solution key.layer) solution key).symm⟩
        · have hprev := ih less hless (fun d hd => hfinal d (Nat.lt_succ_of_lt hd)) hseen
          exact toOption_eq_some_iff.2 (prev_answersFrom_eq_ok_iff.2 hprev)
        · have hget := hfinal less hless _ _ hseen
          exact toOption_eq_some_iff.2 (final_answersFrom_eq_ok_iff.2 hget)
      rw [stage_of_binding? hbinding, Recipe.result_of_yield? hwithin hyield]

/-! ### Existence and uniqueness -/

theorem solves_of_solveAnew (hp : p.Propagates) (h : p.solveAnew = .ok solution) : p.Solves solution := by
  intro name a hget
  rw [get?_of_solveAnew hp h] at hget
  refine stage_of_seen? (fun less hless other b hseen => ?_) hget
  rw [get?_of_solveAnew hp h]
  exact p.seen?_mono (fun key c => p.value?_mono (Nat.le_of_lt hless)) hseen

/-- A second solution has every value, by induction on the depth at which it is found. -/
theorem get?_of_solves {other : NameMap α} (hnames : ∀ name, name ∈ p.names → (other.get? name).isSome)
    (hother : p.Solves other) {depth : Nat} {name : String} {a : α}
    (h : p.seen? (p.value? depth) name p.layers.length = some a) : other.get? name = some a := by
  induction depth using Nat.strongRecOn generalizing name a with
  | ind depth ih =>
    have hdefined : name ∈ p.names := by
      rw [mem_names_iff, defined_eq_true_iff]
      intro habsent
      simp [seen?, habsent] at h
    obtain ⟨b, hb⟩ := Option.isSome_iff_exists.1 (hnames name hdefined)
    have hstage := stage_of_seen? (fun less hless _ _ => ih less hless) h
    rw [hother name b hb] at hstage
    rw [hb, Except.ok.inj (Option.some.inj hstage)]

theorem eq_of_solves (hp : p.Propagates) (h : p.solveAnew = .ok solution) {other : NameMap α}
    (hnames : other.names = solution.names) (hother : p.Solves other) : other = solution := by
  have hisSome : ∀ name, (other.get? name).isSome ↔ (solution.get? name).isSome := by
    intro name
    rw [← NameMap.mem_names_iff, ← NameMap.mem_names_iff, hnames]
  refine NameMap.ext_get? fun name => ?_
  cases hget : solution.get? name with
  | none => simpa [hget] using hisSome name
  | some a =>
    rw [get?_of_solveAnew hp h] at hget
    refine get?_of_solves (fun n hn => (hisSome n).2 ?_) hother hget
    rwa [← NameMap.mem_names_iff, mem_names_of_solveAnew h]

end Problem

/-- The fixed point law: what a chain of overlays is solved to has the names of the base and of the accepted bindings, it
comes out of the fold of the layers that it is itself used in, and no other set with these names does. -/
theorem apply_unique_fixpoint {chain : List (Overlay α)} (hchain : ∀ o ∈ chain, o.Propagates) {platform : Platform}
    {base solution : NameMap α} (h : apply chain platform base = .ok solution) :
    (∀ name, name ∈ solution.names ↔ name ∈ base.names ∨
      ∃ layer ∈ stack chain, ∃ binding, layer.bindings.get? name = some binding ∧ binding.accepts platform = true) ∧
    (Problem.mk platform base (stack chain)).Solves solution ∧
    ∀ other : NameMap α, other.names = solution.names → (Problem.mk platform base (stack chain)).Solves other →
      other = solution := by
  have hp := Problem.propagates_stack hchain platform base
  have hsolved := (Problem.solve_eq_solveAnew hp).symm.trans h
  refine ⟨fun name => ?_, Problem.solves_of_solveAnew hp hsolved, fun other => Problem.eq_of_solves hp hsolved⟩
  rw [Problem.mem_names_of_solveAnew hsolved, Problem.mem_names_iff_exists]

theorem apply_crossing_unique_fixpoint :
    apply crossing ⟨"x86_64-linux"⟩ (.ofList [("x", 0)]) = .ok (.ofList [("w", 26), ("x", 10), ("y", 16), ("z", 15)]) ∧
    (Problem.mk ⟨"x86_64-linux"⟩ (.ofList [("x", 0)]) (stack crossing)).Solves
      (.ofList [("w", 26), ("x", 10), ("y", 16), ("z", 15)]) ∧
    ∀ other : NameMap Nat, other.names = ["w", "x", "y", "z"] →
      (Problem.mk ⟨"x86_64-linux"⟩ (.ofList [("x", 0)]) (stack crossing)).Solves other →
      other = .ofList [("w", 26), ("x", 10), ("y", 16), ("z", 15)] := by
  have hsolved : apply crossing ⟨"x86_64-linux"⟩ (.ofList [("x", 0)]) =
      .ok (.ofList [("w", 26), ("x", 10), ("y", 16), ("z", 15)]) := by decide +kernel
  exact ⟨hsolved, (apply_unique_fixpoint propagates_crossing hsolved).2⟩

end HostFleet.Overlay
