import HostFleet.Proofs.Overlay.Visibility

/-!
# Values without a solver

A recipe is a tree of questions, so answers to its questions determine its result. `Recipe.result` follows a recipe under
answers that may be faults, and `Recipe.yield?` under answers that may be missing, where it stops at the first missing
one. `Problem.value?` iterates `yield?`: the value that a binding has after at most so many look-ups inside one another.
It knows neither memo nor stack, grows with the depth and never changes its mind, so it is the yardstick for what the
solver does.
-/

namespace HostFleet.Overlay

variable {α : Type}

theorem toOption_eq_some_iff {ε : Type} {x : Except ε α} {a : α} : x.toOption = some a ↔ x = .ok a := by
  cases x <;> simp [Except.toOption]

/-- Answers to the questions of a recipe. -/
structure Answers (β : Type) where
  prev : String → β
  final : String → β
  hasPrev : String → Bool

namespace Answers

def successes (answers : Answers (Except Fault α)) : Answers (Option α) where
  prev name := (answers.prev name).toOption
  final name := (answers.final name).toOption
  hasPrev := answers.hasPrev

/-- Whatever the first answers know, the second ones know as well. -/
structure Within (few many : Answers (Option α)) : Prop where
  prev : ∀ {name a}, few.prev name = some a → many.prev name = some a
  final : ∀ {name a}, few.final name = some a → many.final name = some a
  hasPrev : few.hasPrev = many.hasPrev

end Answers

namespace Recipe

def result (answers : Answers (Except Fault α)) : Recipe α → Except Fault α
  | .done result => result
  | .prev name next => (next (answers.prev name)).result answers
  | .final name next => (next (answers.final name)).result answers
  | .hasPrev name next => (next (answers.hasPrev name)).result answers
  | .remark _ next => next.result answers

/-- The value of a recipe, if every look-up on the way to it has an answer. -/
def yield? (answers : Answers (Option α)) : Recipe α → Option α
  | .done result => result.toOption
  | .prev name next =>
    match answers.prev name with
    | some a => (next (.ok a)).yield? answers
    | none => none
  | .final name next =>
    match answers.final name with
    | some a => (next (.ok a)).yield? answers
    | none => none
  | .hasPrev name next => (next (answers.hasPrev name)).yield? answers
  | .remark _ next => next.yield? answers

/-! ### A look-up and what follows it -/

theorem yield?_prev_eq_some_iff {answers : Answers (Option α)} {name : String} {next : Except Fault α → Recipe α} {a : α} :
    (Recipe.prev name next).yield? answers = some a ↔
      ∃ b, answers.prev name = some b ∧ (next (.ok b)).yield? answers = some a := by
  rw [yield?]
  cases answers.prev name <;> simp

theorem yield?_final_eq_some_iff {answers : Answers (Option α)} {name : String} {next : Except Fault α → Recipe α} {a : α} :
    (Recipe.final name next).yield? answers = some a ↔
      ∃ b, answers.final name = some b ∧ (next (.ok b)).yield? answers = some a := by
  rw [yield?]
  cases answers.final name <;> simp

/-! ### Values and results -/

theorem yield?_mono {few many : Answers (Option α)} (hwithin : few.Within many) {r : Recipe α} {a : α}
    (h : r.yield? few = some a) : r.yield? many = some a := by
  induction r with
  | done result => exact h
  | prev name next ih =>
    obtain ⟨b, hfew, hnext⟩ := yield?_prev_eq_some_iff.1 h
    exact yield?_prev_eq_some_iff.2 ⟨b, hwithin.prev hfew, ih _ hnext⟩
  | final name next ih =>
    obtain ⟨b, hfew, hnext⟩ := yield?_final_eq_some_iff.1 h
    exact yield?_final_eq_some_iff.2 ⟨b, hwithin.final hfew, ih _ hnext⟩
  | hasPrev name next ih =>
    rw [yield?, ← hwithin.hasPrev]
    exact ih _ h
  | remark text next ih => exact ih h

/-- A recipe that found all it asked for has the same result when other questions are answered too. -/
theorem result_of_yield? {few : Answers (Option α)} {answers : Answers (Except Fault α)}
    (hwithin : few.Within answers.successes) {r : Recipe α} {a : α} (h : r.yield? few = some a) :
    r.result answers = .ok a := by
  replace h := yield?_mono hwithin h
  induction r with
  | done _ => exact toOption_eq_some_iff.1 h
  | prev name next ih =>
    obtain ⟨b, hanswer, hnext⟩ := yield?_prev_eq_some_iff.1 h
    rw [result, toOption_eq_some_iff.1 hanswer]
    exact ih _ hnext
  | final name next ih =>
    obtain ⟨b, hanswer, hnext⟩ := yield?_final_eq_some_iff.1 h
    rw [result, toOption_eq_some_iff.1 hanswer]
    exact ih _ hnext
  | hasPrev name next ih => exact ih _ h
  | remark text next ih => exact ih h

/-- An error-propagating recipe that has a value found all it asked for. -/
theorem Propagates.yield?_of_result {scope : Scope} {answers : Answers (Except Fault α)} {r : Recipe α} {a : α}
    (hr : r.Propagates scope) (h : r.result answers = .ok a) : r.yield? answers.successes = some a := by
  induction r with
  | done _ => exact toOption_eq_some_iff.2 h
  | prev name next ih =>
    obtain ⟨hfault, hnext⟩ := hr
    rw [result] at h
    cases hanswer : answers.prev name with
    | ok b =>
      have hvalue := ih _ (hnext b) (hanswer ▸ h)
      exact yield?_prev_eq_some_iff.2 ⟨b, toOption_eq_some_iff.2 hanswer, hvalue⟩
    | error e => simp [hanswer, hfault, fault, result] at h
  | final name next ih =>
    obtain ⟨hfault, hnext⟩ := hr
    rw [result] at h
    cases hanswer : answers.final name with
    | ok b =>
      have hvalue := ih _ (hnext b) (hanswer ▸ h)
      exact yield?_final_eq_some_iff.2 ⟨b, toOption_eq_some_iff.2 hanswer, hvalue⟩
    | error e => simp [hanswer, hfault, fault, result] at h
  | hasPrev name next ih => exact ih _ (hr _) h
  | remark text next ih => exact ih hr h

theorem propagates_value (scope : Scope) (a : α) : (value a).Propagates scope := trivial

theorem propagates_demandPrev {scope : Scope} {next : α → Recipe α} (h : ∀ a, (next a).Propagates scope) (package : String) :
    (demandPrev package next).Propagates scope :=
  ⟨fun _ => rfl, h⟩

theorem propagates_demand {scope : Scope} {next : α → Recipe α} (h : ∀ a, (next a).Propagates scope) (package : String) :
    (demand package next).Propagates scope :=
  ⟨fun _ => rfl, h⟩

end Recipe

/-- Every recipe of an overlay has a property, wherever it stands. -/
def Each (good : Scope → Recipe α → Prop) (o : Overlay α) : Prop :=
  ∀ layer ∈ o.layers, ∀ name binding, layer.bindings.get? name = some binding →
    ∀ scope, good scope (binding.recipe scope)

theorem each_new (good : Scope → Recipe α → Prop) (name : String) : (new name).Each good := by
  intro layer hlayer package binding hget
  obtain rfl : layer = ⟨name, .empty⟩ := by simpa [new, layers] using hlayer
  simp at hget

theorem Each.bindWith {good : Scope → Recipe α → Prop} {o : Overlay α} (ho : o.Each good) {binding : Binding α}
    (hbinding : ∀ scope, good scope (binding.recipe scope)) (package : String) :
    (o.bindWith package binding).Each good := by
  intro layer hlayer name found hget
  rcases List.mem_append.1 hlayer with hlower | htop
  · exact ho layer (List.mem_append_left _ hlower) name found hget
  · obtain rfl := List.mem_singleton.1 htop
    simp only [Overlay.bindWith, NameMap.get?_insert] at hget
    split at hget
    · obtain rfl := Option.some.inj hget
      exact hbinding
    · exact ho o.top (by simp [layers]) name found hget

def Propagates (o : Overlay α) : Prop := o.Each fun scope r => r.Propagates scope

namespace Problem

variable (p : Problem α)

theorem each_stack {good : Scope → Recipe α → Prop} {chain : List (Overlay α)} (hchain : ∀ o ∈ chain, o.Each good)
    {platform : Platform} {base : NameMap α} {key : Key} {binding : Binding α}
    (hbinding : (Problem.mk platform base (stack chain)).stored? key = some binding) (scope : Scope) :
    good scope (binding.recipe scope) := by
  obtain ⟨layer, hlayer, hget⟩ := (stored?_eq_some_iff _).1 hbinding
  obtain ⟨o, ho, hmem⟩ := List.mem_flatMap.1 (List.mem_of_getElem? hlayer)
  exact hchain o ho layer hmem key.name binding hget scope

def Propagates : Prop :=
  ∀ key binding, p.stored? key = some binding → (binding.recipe (p.scope key)).Propagates (p.scope key)

theorem propagates_stack {chain : List (Overlay α)} (hchain : ∀ o ∈ chain, o.Propagates) (platform : Platform)
    (base : NameMap α) : (Problem.mk platform base (stack chain)).Propagates :=
  fun _ _ hbinding => each_stack hchain hbinding _

/-- What a look-up gives when the values of some bindings are known. -/
def seen? (known : Key → Option α) (name : String) (height : Nat) : Option α :=
  match p.sight name height with
  | .bound key => known key
  | .given a => some a
  | .absent => none

/-- The answers to the recipe of a key when the values of some bindings are known. -/
def knowledge (known : Key → Option α) (key : Key) : Answers (Option α) where
  prev name := p.seen? known name key.layer
  final name := p.seen? known name p.layers.length
  hasPrev := p.defined key.layer

/-- The value of a binding, if at most so many bindings have to be evaluated inside one another to find it. -/
def value? (p : Problem α) : (depth : Nat) → Key → Option α
  | 0, _ => none
  | depth + 1, key =>
    match p.stored? key with
    | some binding => (binding.recipe (p.scope key)).yield? (p.knowledge (p.value? depth) key)
    | none => none

theorem value?_succ {key : Key} {binding : Binding α} (hbinding : p.stored? key = some binding) (depth : Nat) :
    p.value? (depth + 1) key = (binding.recipe (p.scope key)).yield? (p.knowledge (p.value? depth) key) := by
  rw [value?, hbinding]

theorem value?_eq_some {depth : Nat} {key : Key} {a : α} (h : p.value? depth key = some a) :
    ∃ less binding, depth = less + 1 ∧ p.stored? key = some binding ∧
      (binding.recipe (p.scope key)).yield? (p.knowledge (p.value? less) key) = some a := by
  cases depth with
  | zero => simp [value?] at h
  | succ less =>
    cases hbinding : p.stored? key with
    | none => simp [value?, hbinding] at h
    | some binding => exact ⟨less, binding, rfl, rfl, p.value?_succ hbinding less ▸ h⟩

theorem seen?_mono {known known' : Key → Option α} (hknown : ∀ key a, known key = some a → known' key = some a)
    {name : String} {height : Nat} {a : α} (h : p.seen? known name height = some a) :
    p.seen? known' name height = some a := by
  unfold seen? at h ⊢
  split at h
  · exact hknown _ _ h
  · exact h
  · simp at h

theorem knowledge_within {known known' : Key → Option α} (hknown : ∀ key a, known key = some a → known' key = some a)
    (key : Key) : (p.knowledge known key).Within (p.knowledge known' key) :=
  ⟨p.seen?_mono hknown, p.seen?_mono hknown, rfl⟩

theorem value?_succ_of_value? {depth : Nat} {key : Key} {a : α} (h : p.value? depth key = some a) :
    p.value? (depth + 1) key = some a := by
  induction depth generalizing key a with
  | zero => simp [value?] at h
  | succ depth ih =>
    obtain ⟨less, binding, hless, hbinding, hyield⟩ := p.value?_eq_some h
    obtain rfl := Nat.succ.inj hless
    rw [p.value?_succ hbinding]
    exact Recipe.yield?_mono (p.knowledge_within (fun _ _ => ih) key) hyield

theorem value?_mono {depth depth' : Nat} (hle : depth ≤ depth') {key : Key} {a : α} (h : p.value? depth key = some a) :
    p.value? depth' key = some a := by
  induction hle with
  | refl => exact h
  | step _ ih => exact p.value?_succ_of_value? ih

theorem value?_eq_none_of_le {depth depth' : Nat} (hle : depth ≤ depth') {key : Key} (h : p.value? depth' key = none) :
    p.value? depth key = none := by
  rw [Option.eq_none_iff_forall_ne_some] at h ⊢
  intro a ha
  exact h a (p.value?_mono hle ha)

/-- A binding has at most one value, whatever the depth. -/
theorem value?_unique {depth depth' : Nat} {key : Key} {a b : α} (ha : p.value? depth key = some a)
    (hb : p.value? depth' key = some b) : a = b := by
  have ha' := p.value?_mono (Nat.le_max_left depth depth') ha
  have hb' := p.value?_mono (Nat.le_max_right depth depth') hb
  exact Option.some.inj (ha'.symm.trans hb')

end Problem

end HostFleet.Overlay
