import HostFleet.Proofs.Overlay.Value

/-!
# The solver without a memo

`Problem.solveAnew` solves a problem as `Problem.solve` does, but keeps no values: every look-up runs the recipe it finds
again, and only the bindings that are running are remembered, to notice cycles. It needs no room, since a binding that is
running is not run again inside itself: `Problem.free`, the bindings that are not running, become fewer with every
recipe that starts.

Two facts tie it to `value?`. A binding that it evaluates has its value within a depth of as many bindings as were free,
and a binding that has a value at some depth is evaluated to it unless one of the running bindings has a value at that
depth too.
-/

namespace HostFleet.Overlay.Problem

variable {α : Type} (p : Problem α)

/-- What a look-up gives where `evaluate` evaluates a binding, for a named requester. -/
def find (evaluate : Key → Except Fault α) (name : String) (height : Nat) (requester : String) : Except Fault α :=
  match p.sight name height with
  | .bound key => evaluate key
  | .given a => .ok a
  | .absent => .error (.missing name requester)

/-- The answers to the recipe of a key where `evaluate` evaluates a binding. -/
def answers (evaluate : Key → Except Fault α) (key : Key) : Answers (Except Fault α) where
  prev name := p.find evaluate name key.layer (p.scope key).frame
  final name := p.find evaluate name p.layers.length (p.scope key).frame
  hasPrev := p.defined key.layer

/-- The number of bindings that are not running. -/
def free (running : List Key) : Nat := (p.storedKeys.filter (· ∉ running)).length

theorem free_cons_lt {key : Key} {running : List Key} (hstored : (p.stored? key).isSome) (hfree : key ∉ running) :
    p.free (key :: running) < p.free running := by
  have hsub : p.storedKeys.filter (· ∉ key :: running) = (p.storedKeys.filter (· ∉ running)).filter (· ≠ key) := by
    rw [List.filter_filter]
    exact List.filter_congr fun k _ => by simp [not_or]
  have hmem : key ∈ p.storedKeys.filter (· ∉ running) := by
    simpa using ⟨p.mem_storedKeys_iff.2 hstored, hfree⟩
  rw [free, free, hsub]
  exact List.length_filter_lt_length_iff_exists.2 ⟨key, hmem, by simp⟩

/-- Evaluates the binding of a key while some bindings are running: runs its recipe, unless it is itself running. -/
def forceAnew (p : Problem α) (running : List Key) (key : Key) : Except Fault α :=
  if hcycle : key ∈ running then .error (.cycle (p.cyclePath running key))
  else
    match hbinding : p.stored? key with
    | none => .error (.missing key.name "<solver>")
    | some binding =>
      have := p.free_cons_lt (Option.isSome_of_eq_some hbinding) hcycle
      (binding.recipe (p.scope key)).result (p.answers (fun k => p.forceAnew (key :: running) k) key)
termination_by p.free running

def collectAnew : List String → Except Fault (List (String × α))
  | [] => .ok []
  | name :: rest =>
    match p.find (p.forceAnew []) name p.layers.length "<final>" with
    | .error e => .error e
    | .ok a => (collectAnew rest).map ((name, a) :: ·)

/-- Solves the problem without a memo. -/
def solveAnew : Except Fault (NameMap α) := (p.collectAnew p.names).map NameMap.ofList

/-! ### One step of the evaluation -/

theorem forceAnew_of_mem {running : List Key} {key : Key} (hcycle : key ∈ running) :
    p.forceAnew running key = .error (.cycle (p.cyclePath running key)) := by
  rw [forceAnew, dif_pos hcycle]

theorem forceAnew_of_stored?_eq_none {running : List Key} {key : Key} (hfree : key ∉ running)
    (hbinding : p.stored? key = none) : p.forceAnew running key = .error (.missing key.name "<solver>") := by
  rw [forceAnew, dif_neg hfree]
  split
  · rfl
  · simp_all

theorem forceAnew_of_stored? {running : List Key} {key : Key} {binding : Binding α} (hfree : key ∉ running)
    (hbinding : p.stored? key = some binding) :
    p.forceAnew running key =
      (binding.recipe (p.scope key)).result (p.answers (p.forceAnew (key :: running)) key) := by
  rw [forceAnew, dif_neg hfree]
  split
  · simp_all
  · simp_all

/-! ### Evaluation and values -/

theorem toOption_find (evaluate : Key → Except Fault α) (name : String) (height : Nat) (requester : String) :
    (p.find evaluate name height requester).toOption = p.seen? (fun key => (evaluate key).toOption) name height := by
  unfold find seen?
  cases p.sight name height <;> rfl

theorem successes_answers (evaluate : Key → Except Fault α) (key : Key) :
    (p.answers evaluate key).successes = p.knowledge (fun k => (evaluate k).toOption) key := by
  simp only [Answers.successes, answers, knowledge, toOption_find]

variable {p}

/-- What is evaluated has a value, within a depth of as many bindings as were free. -/
theorem value?_of_forceAnew (hp : p.Propagates) {running : List Key} {key : Key} {a : α}
    (h : p.forceAnew running key = .ok a) : p.value? (p.free running) key = some a := by
  fun_induction forceAnew p running key generalizing a with
  | case1 running key hcycle => simp at h
  | case2 running key hcycle hbinding => simp at h
  | case3 running key hcycle binding hbinding hless ih =>
    obtain ⟨depth, hdepth⟩ : ∃ depth, p.free running = depth + 1 := Nat.exists_eq_add_one_of_ne_zero (by omega)
    have hinner : ∀ k b, (p.forceAnew (key :: running) k).toOption = some b → p.value? depth k = some b := by
      intro k b hk
      exact p.value?_mono (by omega) (ih k (toOption_eq_some_iff.1 hk))
    have hyield := (hp key binding hbinding).yield?_of_result h
    rw [successes_answers] at hyield
    rw [hdepth, p.value?_succ hbinding]
    exact Recipe.yield?_mono (p.knowledge_within hinner key) hyield

/-- What has a value is evaluated to it, unless a running binding has a value at the same depth. -/
theorem forceAnew_of_value? {depth : Nat} {running : List Key} {key : Key} {a : α} (h : p.value? depth key = some a)
    (hrunning : ∀ k ∈ running, p.value? depth k = none) : p.forceAnew running key = .ok a := by
  induction depth generalizing running key a with
  | zero => simp [value?] at h
  | succ depth ih =>
    cases hless : p.value? depth key with
    | some b =>
      obtain rfl := p.value?_unique hless h
      exact ih hless fun k hk => p.value?_eq_none_of_le (Nat.le_succ depth) (hrunning k hk)
    | none =>
      -- the depth is the least one for the key, so the key may join the running ones one level below
      have hfree : key ∉ running := fun hmem => by simp [hrunning key hmem] at h
      cases hbinding : p.stored? key with
      | none => simp [value?, hbinding] at h
      | some binding =>
        have hinner : ∀ k ∈ key :: running, p.value? depth k = none := by
          intro k hk
          rcases List.mem_cons.1 hk with rfl | hk
          · exact hless
          · exact p.value?_eq_none_of_le (Nat.le_succ depth) (hrunning k hk)
        rw [p.value?_succ hbinding] at h
        rw [p.forceAnew_of_stored? hfree hbinding]
        refine Recipe.result_of_yield? ?_ h
        rw [successes_answers]
        exact p.knowledge_within (fun k b hk => toOption_eq_some_iff.2 (ih hk hinner)) key

/-! ### The solved set -/

theorem free_nil (p : Problem α) : p.free [] = p.room := by
  simp [free, room]

theorem seen?_of_find (hp : p.Propagates) {name : String} {height : Nat} {requester : String} {a : α}
    (h : p.find (p.forceAnew []) name height requester = .ok a) : p.seen? (p.value? p.room) name height = some a := by
  have hseen := toOption_eq_some_iff.2 h
  rw [toOption_find] at hseen
  refine p.seen?_mono (fun key b hkey => ?_) hseen
  rw [← free_nil]
  exact value?_of_forceAnew hp (toOption_eq_some_iff.1 hkey)

theorem collectAnew_cons_eq_ok {name : String} {rest : List String} {found : List (String × α)}
    (h : p.collectAnew (name :: rest) = .ok found) :
    ∃ a more, p.find (p.forceAnew []) name p.layers.length "<final>" = .ok a ∧ p.collectAnew rest = .ok more ∧
      found = (name, a) :: more := by
  rw [collectAnew] at h
  split at h
  · simp at h
  · rename_i a hfirst
    cases hrest : p.collectAnew rest with
    | error e => simp [hrest, Except.map] at h
    | ok more =>
      rw [hrest] at h
      exact ⟨a, more, hfirst, rfl, (Except.ok.inj h).symm⟩

theorem names_of_collectAnew {names : List String} {found : List (String × α)} (h : p.collectAnew names = .ok found) :
    found.map Prod.fst = names := by
  induction names generalizing found with
  | nil =>
    obtain rfl := Except.ok.inj h
    rfl
  | cons name rest ih =>
    obtain ⟨a, more, -, hrest, rfl⟩ := collectAnew_cons_eq_ok h
    rw [List.map_cons, ih hrest]

theorem find_of_mem_collectAnew {names : List String} {found : List (String × α)} (h : p.collectAnew names = .ok found)
    {name : String} {a : α} (hmem : (name, a) ∈ found) :
    p.find (p.forceAnew []) name p.layers.length "<final>" = .ok a := by
  induction names generalizing found with
  | nil =>
    obtain rfl := Except.ok.inj h
    simp at hmem
  | cons first rest ih =>
    obtain ⟨b, more, hfirst, hrest, rfl⟩ := collectAnew_cons_eq_ok h
    rcases List.mem_cons.1 hmem with heq | hmore
    · obtain ⟨rfl, rfl⟩ := Prod.mk.inj heq
      exact hfirst
    · exact ih hrest hmore

theorem exists_find_of_collectAnew_eq_error {names : List String} {e : Fault} (h : p.collectAnew names = .error e) :
    ∃ name ∈ names, p.find (p.forceAnew []) name p.layers.length "<final>" = .error e := by
  induction names with
  | nil => simp [collectAnew] at h
  | cons name rest ih =>
    rw [collectAnew] at h
    split at h
    · rename_i e' hfirst
      obtain rfl := Except.error.inj h
      exact ⟨name, by simp, hfirst⟩
    · cases hrest : p.collectAnew rest with
      | ok found => simp [hrest, Except.map] at h
      | error e' =>
        obtain rfl : e' = e := by simpa [hrest, Except.map] using h
        obtain ⟨other, hmem, hother⟩ := ih hrest
        exact ⟨other, List.mem_cons_of_mem _ hmem, hother⟩

/-- A fault of the whole is the fault of a binding of some name of the finished set. -/
theorem exists_forceAnew_of_solveAnew_eq_error {e : Fault} (h : p.solveAnew = .error e) :
    ∃ name key, p.sight name p.layers.length = .bound key ∧ p.forceAnew [] key = .error e := by
  have hcollect : p.collectAnew p.names = .error e := by
    rw [solveAnew] at h
    cases hfound : p.collectAnew p.names with
    | ok found => simp [hfound, Except.map] at h
    | error e' => simpa [hfound, Except.map] using h
  obtain ⟨name, hname, hfind⟩ := exists_find_of_collectAnew_eq_error hcollect
  rw [mem_names_iff, defined_eq_true_iff] at hname
  rw [find] at hfind
  cases hsight : p.sight name p.layers.length with
  | bound key => exact ⟨name, key, hsight, by simpa [hsight] using hfind⟩
  | given a => simp [hsight] at hfind
  | absent => exact absurd hsight hname

theorem solveAnew_eq_ok {solution : NameMap α} (h : p.solveAnew = .ok solution) :
    ∃ found, p.collectAnew p.names = .ok found ∧ solution = NameMap.ofList found := by
  rw [solveAnew] at h
  cases hfound : p.collectAnew p.names with
  | error e => simp [hfound, Except.map] at h
  | ok found =>
    rw [hfound] at h
    exact ⟨found, rfl, (Except.ok.inj h).symm⟩

theorem mem_names_of_solveAnew {solution : NameMap α} (h : p.solveAnew = .ok solution) (name : String) :
    name ∈ solution.names ↔ name ∈ p.names := by
  obtain ⟨found, hfound, rfl⟩ := solveAnew_eq_ok h
  rw [NameMap.mem_names_ofList, names_of_collectAnew hfound]

theorem isSome_get?_of_sight_eq_bound {solution : NameMap α} (h : p.solveAnew = .ok solution) {name : String} {key : Key}
    (hsight : p.sight name p.layers.length = .bound key) : (solution.get? name).isSome := by
  rw [← NameMap.mem_names_iff, mem_names_of_solveAnew h, mem_names_iff, defined_eq_true_iff, hsight]
  simp

/-- A solved set has under each name what a look-up over all layers finds, once everything has its value. -/
theorem get?_of_solveAnew (hp : p.Propagates) {solution : NameMap α} (h : p.solveAnew = .ok solution) (name : String) :
    solution.get? name = p.seen? (p.value? p.room) name p.layers.length := by
  cases hget : solution.get? name with
  | some a =>
    obtain ⟨found, hfound, rfl⟩ := solveAnew_eq_ok h
    have hfind := find_of_mem_collectAnew hfound (NameMap.mem_of_get?_ofList hget)
    exact (seen?_of_find hp hfind).symm
  | none =>
    have hout : name ∉ solution.names := by
      rw [NameMap.mem_names_iff, hget]
      simp
    rw [mem_names_of_solveAnew h, mem_names_iff, defined_eq_true_iff, Classical.not_not] at hout
    rw [seen?, hout]

/-- A solved set has every final value, whatever the depth at which it is found. -/
theorem get?_of_seen? (hp : p.Propagates) {solution : NameMap α} (h : p.solveAnew = .ok solution) {depth : Nat} {name : String}
    {a : α} (hseen : p.seen? (p.value? depth) name p.layers.length = some a) : solution.get? name = some a := by
  rw [get?_of_solveAnew hp h]
  refine p.seen?_mono (fun key b hkey => ?_) hseen
  rw [← free_nil]
  exact value?_of_forceAnew hp (forceAnew_of_value? hkey (by simp))

end HostFleet.Overlay.Problem
