import HostFleet.Proofs.Overlay.Course

/-!
# Evaluations that come to an end

`Problem.value?` gives values only. A binding can also be evaluated to a fault, and that is an end as well.
`Problem.settled?` is the evaluation to either, without a memo and without a list of running bindings: it has no result as
long as the evaluations inside one another are deeper than allowed, and a binding that has none at any depth has no finite
evaluation.

How far a recipe comes on the values of some bindings is `Recipe.Becomes`. It ties values that are known to evaluations: a
recipe that becomes a value on values that stand for evaluations has that value itself, and one that becomes a look-up
waits for what the look-up finds.
-/

namespace HostFleet.Overlay

variable {α : Type}

def Answers.look {β : Type} (answers : Answers β) : Side → String → β
  | .below => answers.prev
  | .finished => answers.final

namespace Recipe

/-- The result of a recipe, if every look-up on the way to it has come to an end. -/
def settle? (answers : Answers (Option (Except Fault α))) : Recipe α → Option (Except Fault α)
  | .done result => some result
  | .prev name next => (answers.prev name).bind fun answer => (next answer).settle? answers
  | .final name next => (answers.final name).bind fun answer => (next answer).settle? answers
  | .hasPrev name next => (next (answers.hasPrev name)).settle? answers
  | .remark _ next => next.settle? answers

theorem settle?_ask (answers : Answers (Option (Except Fault α))) (side : Side) (name : String)
    (next : Except Fault α → Recipe α) :
    (ask side name next).settle? answers = (answers.look side name).bind fun answer => (next answer).settle? answers := by
  cases side <;> rfl

theorem settle?_mono {few many : Answers (Option (Except Fault α))} (hwithin : few.Within many) {r : Recipe α}
    {result : Except Fault α} (h : r.settle? few = some result) : r.settle? many = some result := by
  induction r with
  | done _ => exact h
  | prev name next ih =>
    obtain ⟨answer, hfew, hnext⟩ := Option.bind_eq_some_iff.1 h
    exact Option.bind_eq_some_iff.2 ⟨answer, hwithin.prev hfew, ih answer hnext⟩
  | final name next ih =>
    obtain ⟨answer, hfew, hnext⟩ := Option.bind_eq_some_iff.1 h
    exact Option.bind_eq_some_iff.2 ⟨answer, hwithin.final hfew, ih answer hnext⟩
  | hasPrev name next ih =>
    rw [settle?, ← hwithin.hasPrev]
    exact ih _ h
  | remark text next ih => exact ih h

/-- The first question of a recipe is answered; a look-up, with a value. -/
inductive Follows (answers : Answers (Option α)) : Recipe α → Recipe α → Prop where
  | ask {side : Side} {name : String} {next : Except Fault α → Recipe α} {a : α} : answers.look side name = some a →
    Follows answers (ask side name next) (next (.ok a))
  | hasPrev (name : String) (next : Bool → Recipe α) : Follows answers (.hasPrev name next) (next (answers.hasPrev name))
  | remark (text : String) (next : Recipe α) : Follows answers (.remark text next) next

/-- What is left of a recipe when some of its questions are answered, all look-ups among them with values. -/
def Becomes (answers : Answers (Option α)) : Recipe α → Recipe α → Prop := Relation.ReflTransGen (Follows answers)

theorem Follows.mono {few many : Answers (Option α)} (hwithin : few.Within many) {r rest : Recipe α}
    (h : r.Follows few rest) : r.Follows many rest := by
  cases h with
  | @ask side name next a hlook =>
    refine .ask ?_
    cases side with
    | below => exact hwithin.prev hlook
    | finished => exact hwithin.final hlook
  | hasPrev name next =>
    rw [hwithin.hasPrev]
    exact .hasPrev name next
  | remark text _ => exact .remark text rest

theorem Becomes.mono {few many : Answers (Option α)} (hwithin : few.Within many) {r rest : Recipe α}
    (h : r.Becomes few rest) : r.Becomes many rest :=
  Relation.ReflTransGen.mono (fun _ _ hfollows => Follows.mono hwithin hfollows) r rest h

theorem Propagates.of_ask {scope : Scope} {side : Side} {name : String} {next : Except Fault α → Recipe α}
    (h : (ask side name next).Propagates scope) :
    (∀ e, next (.error e) = fault e) ∧ ∀ a, (next (.ok a)).Propagates scope := by
  cases side with
  | below => exact h
  | finished => exact h

theorem Propagates.of_becomes {scope : Scope} {answers : Answers (Option α)} {r rest : Recipe α} (hr : r.Propagates scope)
    (h : r.Becomes answers rest) : rest.Propagates scope := by
  induction h with
  | refl => exact hr
  | tail _ hfollows ih =>
    cases hfollows with
    | ask _ => exact ih.of_ask.2 _
    | hasPrev name next => exact ih _
    | remark text next => exact ih

/-! ### Results along the way -/

section Settle

variable {known : Answers (Option α)} {answers : Answers (Option (Except Fault α))}
  (hhas : known.hasPrev = answers.hasPrev) {r rest : Recipe α} {result : Except Fault α}

include hhas

/-- What is left has the result of the whole, where the answers can be no others than the known values. -/
theorem Becomes.settle?_rest
    (hagree : ∀ side name a answer, known.look side name = some a → answers.look side name = some answer → answer = .ok a)
    (h : r.Becomes known rest) (hr : r.settle? answers = some result) : rest.settle? answers = some result := by
  induction h with
  | refl => exact hr
  | tail _ hfollows ih =>
    cases hfollows with
    | ask hlook =>
      rw [settle?_ask] at ih
      obtain ⟨answer, hanswer, hnext⟩ := Option.bind_eq_some_iff.1 ih
      rw [← hagree _ _ _ _ hlook hanswer]
      exact hnext
    | hasPrev name next =>
      rw [hhas]
      exact ih
    | remark text next => exact ih

/-- The whole has the result of what is left, where the known values are answers. -/
theorem Becomes.settle?_whole
    (hknown : ∀ side name a, known.look side name = some a → answers.look side name = some (.ok a))
    (h : r.Becomes known rest) (hrest : rest.settle? answers = some result) : r.settle? answers = some result := by
  induction h with
  | refl => exact hrest
  | tail _ hfollows ih =>
    refine ih ?_
    cases hfollows with
    | ask hlook =>
      rw [settle?_ask, hknown _ _ _ hlook]
      exact hrest
    | hasPrev name next =>
      rw [hhas] at hrest
      exact hrest
    | remark text next => exact hrest

end Settle

end Recipe

namespace Problem

variable (p : Problem α)

/-- What a look-up comes to when the results of some bindings are known, for a named requester. -/
def reply? (known : Key → Option (Except Fault α)) (name : String) (height : Nat) (requester : String) :
    Option (Except Fault α) :=
  match p.sight name height with
  | .bound key => known key
  | .given a => some (.ok a)
  | .absent => some (.error (.missing name requester))

/-- The answers to the recipe of a key when the results of some bindings are known. -/
def replies (known : Key → Option (Except Fault α)) (key : Key) : Answers (Option (Except Fault α)) where
  prev name := p.reply? known name key.layer (p.scope key).frame
  final name := p.reply? known name p.layers.length (p.scope key).frame
  hasPrev := p.defined key.layer

/-- The result of a binding, if at most so many bindings have to be evaluated inside one another to find it. -/
def settled? (p : Problem α) : (depth : Nat) → Key → Option (Except Fault α)
  | 0, _ => none
  | depth + 1, key =>
    match p.stored? key with
    | some binding => (binding.recipe (p.scope key)).settle? (p.replies (p.settled? depth) key)
    | none => some (.error (.missing key.name "<solver>"))

theorem settled?_succ {key : Key} {binding : Binding α} (hbinding : p.stored? key = some binding) (depth : Nat) :
    p.settled? (depth + 1) key = (binding.recipe (p.scope key)).settle? (p.replies (p.settled? depth) key) := by
  rw [settled?, hbinding]

theorem look_knowledge (known : Key → Option α) (key : Key) (side : Side) (name : String) :
    (p.knowledge known key).look side name = p.seen? known name (p.height key side) := by
  cases side <;> rfl

theorem look_replies (known : Key → Option (Except Fault α)) (key : Key) (side : Side) (name : String) :
    (p.replies known key).look side name = p.reply? known name (p.height key side) (p.scope key).frame := by
  cases side <;> rfl

theorem reply?_mono {known known' : Key → Option (Except Fault α)}
    (hknown : ∀ key result, known key = some result → known' key = some result) {name : String} {height : Nat}
    {requester : String} {result : Except Fault α} (h : p.reply? known name height requester = some result) :
    p.reply? known' name height requester = some result := by
  unfold reply? at h ⊢
  split at h
  · exact hknown _ _ h
  · exact h
  · exact h

theorem replies_within {known known' : Key → Option (Except Fault α)}
    (hknown : ∀ key result, known key = some result → known' key = some result) (key : Key) :
    (p.replies known key).Within (p.replies known' key) :=
  ⟨p.reply?_mono hknown, p.reply?_mono hknown, rfl⟩

/-! ### One result for a binding -/

theorem settled?_succ_of_settled? {depth : Nat} {key : Key} {result : Except Fault α}
    (h : p.settled? depth key = some result) : p.settled? (depth + 1) key = some result := by
  induction depth generalizing key result with
  | zero => simp [settled?] at h
  | succ depth ih =>
    cases hbinding : p.stored? key with
    | none =>
      simp only [settled?, hbinding] at h ⊢
      exact h
    | some binding =>
      rw [p.settled?_succ hbinding] at h ⊢
      exact Recipe.settle?_mono (p.replies_within (fun _ _ => ih) key) h

theorem settled?_mono {depth depth' : Nat} (hle : depth ≤ depth') {key : Key} {result : Except Fault α}
    (h : p.settled? depth key = some result) : p.settled? depth' key = some result := by
  induction hle with
  | refl => exact h
  | step _ ih => exact p.settled?_succ_of_settled? ih

theorem settled?_eq_none_of_le {depth depth' : Nat} (hle : depth ≤ depth') {key : Key} (h : p.settled? depth' key = none) :
    p.settled? depth key = none := by
  cases hsettled : p.settled? depth key with
  | none => rfl
  | some result => simp [p.settled?_mono hle hsettled] at h

theorem settled?_unique {depth depth' : Nat} {key : Key} {result result' : Except Fault α}
    (h : p.settled? depth key = some result) (h' : p.settled? depth' key = some result') : result = result' := by
  have hmax := p.settled?_mono (Nat.le_max_left depth depth') h
  have hmax' := p.settled?_mono (Nat.le_max_right depth depth') h'
  exact Option.some.inj (hmax.symm.trans hmax')

/-! ### Known values and evaluations -/

/-- So much is left of the recipe of a key when it is answered from the known values. -/
def Reaches (known : Key → Option α) (key : Key) (rest : Recipe α) : Prop :=
  ∃ binding, p.binding? key = some binding ∧
    (binding.recipe (p.scope key)).Becomes (p.knowledge known key) rest

/-- The recipe of a key, answered from the known values, comes to a look-up whose topmost visible binding is another. -/
def Demands (known : Key → Option α) (key found : Key) : Prop :=
  ∃ side name next, p.Reaches known key (.ask side name next) ∧ p.sight name (p.height key side) = .bound found

/-- The known values are those that evaluation gives within some depth. -/
def Backed (known : Key → Option α) : Prop :=
  ∃ depth, ∀ key a, known key = some a → p.settled? depth key = some (.ok a)

variable {p} {known known' : Key → Option α} {key found : Key}

/-- A value that is put into the memo has to be one that evaluation gives. -/
theorem Backed.pop {state : State α} (h : p.Backed state.found?) {result : Except Fault α}
    (hresult : ∀ a, result = .ok a → ∃ depth, p.settled? depth key = some (.ok a)) :
    p.Backed (state.pop key result).found? := by
  cases result with
  | error e => exact h
  | ok a =>
    obtain ⟨depth, hdepth⟩ := h
    obtain ⟨depth', hkey⟩ := hresult a rfl
    refine ⟨max depth depth', fun other b hother => ?_⟩
    rw [State.found?_pop_ok] at hother
    split at hother
    · rename_i heq
      rw [← heq, ← Option.some.inj hother]
      exact p.settled?_mono (Nat.le_max_right depth depth') hkey
    · exact p.settled?_mono (Nat.le_max_left depth depth') (hdepth other b hother)

theorem Reaches.mono (hknown : ∀ key a, known key = some a → known' key = some a) {rest : Recipe α}
    (h : p.Reaches known key rest) : p.Reaches known' key rest := by
  obtain ⟨binding, hbinding, hbecomes⟩ := h
  exact ⟨binding, hbinding, hbecomes.mono (p.knowledge_within hknown key)⟩

theorem Reaches.tail {rest rest' : Recipe α} (h : p.Reaches known key rest)
    (hfollows : rest.Follows (p.knowledge known key) rest') : p.Reaches known key rest' := by
  obtain ⟨binding, hbinding, hbecomes⟩ := h
  exact ⟨binding, hbinding, hbecomes.tail hfollows⟩

theorem Reaches.propagates (hp : p.Propagates) {rest : Recipe α} (h : p.Reaches known key rest) :
    rest.Propagates (p.scope key) := by
  obtain ⟨binding, hbinding, hbecomes⟩ := h
  exact (hp key binding (p.stored?_of_binding? hbinding)).of_becomes hbecomes

/-- A recipe that comes to a value on values of evaluations is evaluated to that value. -/
theorem Reaches.settled? {depth : Nat} (hknown : ∀ key a, known key = some a → p.settled? depth key = some (.ok a)) {a : α}
    (h : p.Reaches known key (.done (.ok a))) : p.settled? (depth + 1) key = some (.ok a) := by
  obtain ⟨binding, hbinding, hbecomes⟩ := h
  rw [p.settled?_succ (p.stored?_of_binding? hbinding)]
  refine hbecomes.settle?_whole rfl ?_ rfl
  intro side name b hlook
  rw [look_knowledge, seen?] at hlook
  rw [look_replies, reply?]
  cases hsight : p.sight name (p.height key side) with
  | bound other =>
    simp only [hsight] at hlook ⊢
    exact hknown other b hlook
  | given c =>
    simp only [hsight] at hlook ⊢
    rw [Option.some.inj hlook]
  | absent => simp [hsight] at hlook

/-- A binding has no result before what it demands has one. -/
theorem Demands.settled?_eq_none (hknown : p.Backed known) (h : p.Demands known key found) {depth : Nat}
    (hfound : p.settled? depth found = none) : p.settled? (depth + 1) key = none := by
  obtain ⟨side, name, next, ⟨binding, hbinding, hbecomes⟩, hsight⟩ := h
  obtain ⟨enough, henough⟩ := hknown
  rw [p.settled?_succ (p.stored?_of_binding? hbinding), Option.eq_none_iff_forall_ne_some]
  intro result hresult
  have hask := hbecomes.settle?_rest rfl ?_ hresult
  · rw [Recipe.settle?_ask, look_replies, reply?, hsight] at hask
    simp [hfound] at hask
  · intro side name a answer hlook hanswer
    rw [look_knowledge, seen?] at hlook
    rw [look_replies, reply?] at hanswer
    cases hsight : p.sight name (p.height key side) with
    | bound other =>
      simp only [hsight] at hlook hanswer
      exact p.settled?_unique hanswer (henough other a hlook)
    | given b =>
      simp only [hsight] at hlook hanswer
      exact Option.some.inj (hanswer.symm.trans (congrArg (Option.map Except.ok) hlook))
    | absent => simp [hsight] at hlook

end Problem

end HostFleet.Overlay
