import HostFleet.Overlay.Solver
import HostFleet.Proofs.NameMap

/-!
# What a look-up finds

A look-up of a name below a height finds a binding, a value of the base or nothing. `Problem.sight` says which, without
evaluating anything, and what it finds is a binding of the platform (`sight_eq_bound`). The solver takes what stands under
a key without asking for the platform again, so this is where its bindings get to be bindings of the platform. Everything
else that the solver asks about visibility is read off `sight` too: the names of the finished set, and whether the set
below a layer has a name. The later modules reach the layers only through these names.
-/

namespace HostFleet.Overlay

variable {α : Type}

/-- What stands under a name below a height. -/
inductive Sight (α : Type) where
  /-- The topmost visible binding. -/
  | bound (key : Key)
  /-- The value of the base, as no visible layer binds the name. -/
  | given (a : α)
  | absent
  deriving DecidableEq

namespace Problem

variable (p : Problem α)

/-- The binding of a key, if it exists on the platform. -/
def binding? (key : Key) : Option (Binding α) := (p.stored? key).filter fun binding => binding.accepts p.platform

/-- What a look-up of a name below a height finds. -/
def sight (name : String) (height : Nat) : Sight α :=
  match p.topmost? name height with
  | some layer => .bound ⟨layer, name⟩
  | none =>
    match p.base.get? name with
    | some a => .given a
    | none => .absent

/-! ### Bindings of the platform -/

theorem stored?_eq_some_iff {key : Key} {binding : Binding α} :
    p.stored? key = some binding ↔
      ∃ layer, p.layers[key.layer]? = some layer ∧ layer.bindings.get? key.name = some binding := by
  simp only [stored?, Option.bind_eq_bind, Option.bind_eq_some_iff]

theorem mem_storedKeys_iff {key : Key} : key ∈ p.storedKeys ↔ (p.stored? key).isSome := by
  simp only [storedKeys, List.mem_flatMap, List.mem_map]
  constructor
  · rintro ⟨⟨layer, index⟩, hlayer, name, hname, rfl⟩
    obtain ⟨binding, hget⟩ := Option.isSome_iff_exists.1 ((NameMap.mem_names_iff _ _).1 hname)
    exact Option.isSome_of_eq_some ((p.stored?_eq_some_iff).2 ⟨layer, List.mem_zipIdx_iff_getElem?.1 hlayer, hget⟩)
  · intro hstored
    obtain ⟨binding, hbinding⟩ := Option.isSome_iff_exists.1 hstored
    obtain ⟨layer, hlayer, hget⟩ := (p.stored?_eq_some_iff).1 hbinding
    refine ⟨(layer, key.layer), List.mem_zipIdx_iff_getElem?.2 hlayer, key.name, ?_, rfl⟩
    rw [NameMap.mem_names_iff, hget]
    rfl

theorem binding?_eq_some_iff {key : Key} {binding : Binding α} :
    p.binding? key = some binding ↔ ∃ layer, p.layers[key.layer]? = some layer ∧
      layer.bindings.get? key.name = some binding ∧ binding.accepts p.platform = true := by
  rw [binding?, Option.filter_eq_some_iff, stored?_eq_some_iff]
  constructor
  · rintro ⟨⟨layer, hlayer, hget⟩, haccepts⟩
    exact ⟨layer, hlayer, hget, haccepts⟩
  · rintro ⟨layer, hlayer, hget, haccepts⟩
    exact ⟨⟨layer, hlayer, hget⟩, haccepts⟩

theorem stored?_of_binding? {key : Key} {binding : Binding α} (h : p.binding? key = some binding) :
    p.stored? key = some binding :=
  (Option.filter_eq_some_iff.1 h).1

theorem binding?_of_stored? {key : Key} {binding : Binding α} (hbound : (p.binding? key).isSome)
    (hstored : p.stored? key = some binding) : p.binding? key = some binding := by
  obtain ⟨found, hfound⟩ := Option.isSome_iff_exists.1 hbound
  rw [p.stored?_of_binding? hfound] at hstored
  rw [hfound, hstored]

theorem isSome_binding?_iff {key : Key} :
    (p.binding? key).isSome ↔ ∃ layer, p.layers[key.layer]? = some layer ∧ layer.binds p.platform key.name := by
  simp only [Option.isSome_iff_exists, binding?_eq_some_iff, Layer.binds, Option.any_eq_true]
  constructor
  · rintro ⟨binding, layer, hlayer, hget, haccepts⟩
    exact ⟨layer, hlayer, binding, hget, haccepts⟩
  · rintro ⟨layer, hlayer, binding, hget, haccepts⟩
    exact ⟨binding, layer, hlayer, hget, haccepts⟩

theorem any_binds_eq (name : String) (layer : Nat) :
    (p.layers[layer]?).any (·.binds p.platform name) = (p.binding? ⟨layer, name⟩).isSome := by
  rw [Bool.eq_iff_iff, isSome_binding?_iff, Option.any_eq_true]

theorem lt_length_of_isSome_binding? {key : Key} (h : (p.binding? key).isSome) : key.layer < p.layers.length := by
  obtain ⟨layer, hlayer, -⟩ := (p.isSome_binding?_iff).1 h
  exact (List.getElem?_eq_some_iff.1 hlayer).1

theorem mem_boundKeys_iff {key : Key} : key ∈ p.boundKeys ↔ (p.binding? key).isSome := by
  simp only [boundKeys, List.mem_flatMap, List.mem_filter, List.mem_map, isSome_binding?_iff]
  constructor
  · rintro ⟨⟨layer, index⟩, hlayer, name, ⟨-, hbinds⟩, rfl⟩
    exact ⟨layer, List.mem_zipIdx_iff_getElem?.1 hlayer, hbinds⟩
  · rintro ⟨layer, hlayer, hbinds⟩
    obtain ⟨binding, hget, -⟩ := (Option.any_eq_true _ _).1 hbinds
    refine ⟨(layer, key.layer), List.mem_zipIdx_iff_getElem?.2 hlayer, key.name, ⟨?_, hbinds⟩, rfl⟩
    rw [NameMap.mem_names_iff, hget]
    rfl

/-! ### The steps of a look-up -/

theorem sight_zero (name : String) :
    p.sight name 0 = match p.base.get? name with | some a => .given a | none => .absent := rfl

/-- One layer more is visible: its binding counts if there is one on the platform, else what was visible before. -/
theorem sight_succ (name : String) (height : Nat) :
    p.sight name (height + 1) =
      if (p.binding? ⟨height, name⟩).isSome then .bound ⟨height, name⟩ else p.sight name height := by
  simp only [sight, topmost?, any_binds_eq]
  by_cases hbound : (p.binding? ⟨height, name⟩).isSome
  · simp [hbound]
  · simp [hbound]

theorem sight_eq_bound {name : String} {height : Nat} {key : Key} (h : p.sight name height = .bound key) :
    key.name = name ∧ key.layer < height ∧ (p.binding? key).isSome := by
  induction height with
  | zero =>
    rw [sight_zero] at h
    split at h <;> simp at h
  | succ height ih =>
    rw [sight_succ] at h
    split at h
    · rename_i hbound
      obtain rfl := Sight.bound.inj h
      exact ⟨rfl, Nat.lt_succ_self height, hbound⟩
    · obtain ⟨hname, hlayer, hbound⟩ := ih h
      exact ⟨hname, Nat.lt_succ_of_lt hlayer, hbound⟩

theorem sight_eq_absent_iff {name : String} {height : Nat} :
    p.sight name height = .absent ↔ p.base.get? name = none ∧ ∀ layer < height, p.binding? ⟨layer, name⟩ = none := by
  induction height with
  | zero =>
    rw [sight_zero]
    cases p.base.get? name <;> simp
  | succ height ih =>
    rw [sight_succ]
    by_cases hbound : (p.binding? ⟨height, name⟩).isSome
    · rw [if_pos hbound]
      refine iff_of_false (by simp) fun ⟨_, hnone⟩ => ?_
      rw [hnone height (Nat.lt_succ_self height)] at hbound
      simp at hbound
    · rw [if_neg hbound, ih]
      refine and_congr_right fun _ => ⟨fun hbelow layer hlayer => ?_, fun hall layer hlayer => hall layer (by omega)⟩
      rcases Nat.lt_succ_iff_lt_or_eq.1 hlayer with hlt | rfl
      · exact hbelow layer hlt
      · simpa using hbound

theorem sight_eq_given {name : String} {height : Nat} {a : α} (h : p.sight name height = .given a) :
    p.base.get? name = some a := by
  induction height with
  | zero =>
    rw [sight_zero] at h
    split at h
    · rename_i b hget
      rw [hget, Sight.given.inj h]
    · simp at h
  | succ height ih =>
    rw [sight_succ] at h
    split at h
    · simp at h
    · exact ih h

/-! ### Visibility read off a look-up -/

theorem lookup_eq_sight (force : Key → Step α α) (name : String) (height : Nat) (requester : String) (state : State α) :
    p.lookup force name height requester state =
      match p.sight name height with
      | .bound key => force key state
      | .given a => (.ok a, state)
      | .absent => (.error (.missing name requester), state) := by
  unfold lookup sight
  cases p.topmost? name height with
  | some layer => rfl
  | none => cases p.base.get? name <;> rfl

theorem defined_iff_exists {name : String} {height : Nat} :
    p.defined height name = true ↔ name ∈ p.base.names ∨ ∃ layer < height, (p.binding? ⟨layer, name⟩).isSome := by
  simp only [defined, Bool.or_eq_true, NameMap.mem_names_iff, NameMap.contains, List.any_eq_true,
    List.mem_take_iff_getElem, isSome_binding?_iff]
  refine or_congr_right ⟨?_, ?_⟩
  · rintro ⟨layer, ⟨index, hindex, rfl⟩, hbinds⟩
    exact ⟨index, by omega, p.layers[index], List.getElem?_eq_getElem (by omega), hbinds⟩
  · rintro ⟨index, hindex, layer, hlayer, hbinds⟩
    obtain ⟨hlength, rfl⟩ := List.getElem?_eq_some_iff.1 hlayer
    exact ⟨p.layers[index], ⟨index, by omega, rfl⟩, hbinds⟩

/-- The set below a height has a name exactly if a look-up there finds something. -/
theorem defined_eq_true_iff {name : String} {height : Nat} :
    p.defined height name = true ↔ p.sight name height ≠ .absent := by
  rw [defined_iff_exists, ne_eq, sight_eq_absent_iff, NameMap.mem_names_iff]
  simp only [Option.isSome_iff_ne_none, ne_eq, Classical.not_and_iff_not_or_not, Classical.not_forall, exists_prop]

theorem exists_isSome_binding?_iff {name : String} :
    (∃ layer < p.layers.length, (p.binding? ⟨layer, name⟩).isSome) ↔
      ∃ layer ∈ p.layers, ∃ binding, layer.bindings.get? name = some binding ∧ binding.accepts p.platform = true := by
  constructor
  · rintro ⟨index, -, hbound⟩
    obtain ⟨binding, hbinding⟩ := Option.isSome_iff_exists.1 hbound
    obtain ⟨layer, hlayer, hget, haccepts⟩ := (p.binding?_eq_some_iff).1 hbinding
    exact ⟨layer, List.mem_of_getElem? hlayer, binding, hget, haccepts⟩
  · rintro ⟨layer, hmem, binding, hget, haccepts⟩
    obtain ⟨index, hindex, hlayer⟩ := List.getElem_of_mem hmem
    have hbinding : p.binding? ⟨index, name⟩ = some binding :=
      (p.binding?_eq_some_iff).2 ⟨layer, List.getElem?_eq_some_iff.2 ⟨hindex, hlayer⟩, hget, haccepts⟩
    exact ⟨index, hindex, Option.isSome_of_eq_some hbinding⟩

/-- The names of the finished set are those that a look-up over all layers finds. -/
theorem mem_names_iff {name : String} : name ∈ p.names ↔ p.defined p.layers.length name = true := by
  rw [names, NameMap.mem_names_ofList, defined_iff_exists]
  simp only [List.map_map, List.mem_map, List.mem_append, Function.comp_apply, exists_eq_right]
  refine or_congr_right ⟨?_, ?_⟩
  · rintro ⟨key, hkey, rfl⟩
    have hbound := p.mem_boundKeys_iff.1 hkey
    exact ⟨key.layer, p.lt_length_of_isSome_binding? hbound, hbound⟩
  · rintro ⟨layer, -, hbound⟩
    exact ⟨⟨layer, name⟩, p.mem_boundKeys_iff.2 hbound, rfl⟩

theorem mem_names_iff_exists {name : String} :
    name ∈ p.names ↔ name ∈ p.base.names ∨
      ∃ layer ∈ p.layers, ∃ binding, layer.bindings.get? name = some binding ∧ binding.accepts p.platform = true := by
  rw [mem_names_iff, defined_iff_exists, exists_isSome_binding?_iff]

end Problem

end HostFleet.Overlay
