/-!
# Finite maps from names

Packages of a set, hosts of a registry, attributes of an artifact: each is a finite map whose keys are names. A
`NameMap` keeps its entries in strictly increasing order of the names, so listing a map lists sorted names, and two maps
with the same contents are the same value. The rest of the project relies on `get?_insert`, `get?_erase` and `ext_get?`
and never on the shape of the entry list.
-/

namespace HostFleet

/-- A finite map from names to values, held as entries in strictly increasing order of the names. -/
structure NameMap (α : Type) where
  entries : List (String × α)
  sorted : entries.Pairwise fun x y => x.1 < y.1
  deriving DecidableEq

namespace NameMap

variable {α β : Type}

def empty : NameMap α := ⟨[], .nil⟩

instance : Inhabited (NameMap α) := ⟨empty⟩

instance : EmptyCollection (NameMap α) := ⟨empty⟩

def names (m : NameMap α) : List String := m.entries.map Prod.fst

def values (m : NameMap α) : List α := m.entries.map Prod.snd

def size (m : NameMap α) : Nat := m.entries.length

def isEmpty (m : NameMap α) : Bool := m.entries.isEmpty

/-- The value of the first entry with a given name. -/
def seek (name : String) : List (String × α) → Option α
  | [] => none
  | e :: rest => if name = e.1 then some e.2 else seek name rest

def get? (m : NameMap α) (name : String) : Option α := seek name m.entries

def contains (m : NameMap α) (name : String) : Bool := (m.get? name).isSome

/-- Puts an entry at its place in a sorted list, over an entry of the same name if there is one. -/
def place (name : String) (a : α) : List (String × α) → List (String × α)
  | [] => [(name, a)]
  | e :: rest =>
    if name < e.1 then (name, a) :: e :: rest
    else if e.1 < name then e :: place name a rest
    else (name, a) :: rest

theorem mem_place {name : String} {a : α} {e : String × α} {l : List (String × α)} (h : e ∈ place name a l) :
    e = (name, a) ∨ e ∈ l := by
  induction l with
  | nil => simpa [place] using h
  | cons x rest ih =>
    simp only [place] at h
    split at h
    · simpa using h
    · split at h
      · rcases List.mem_cons.1 h with h | h
        · exact .inr (by simp [h])
        · exact (ih h).imp_right (List.mem_cons_of_mem _)
      · rcases List.mem_cons.1 h with h | h
        · exact .inl h
        · exact .inr (List.mem_cons_of_mem _ h)

theorem pairwise_place (name : String) (a : α) {l : List (String × α)} (h : l.Pairwise fun x y => x.1 < y.1) :
    (place name a l).Pairwise fun x y => x.1 < y.1 := by
  induction l with
  | nil => simp [place]
  | cons x rest ih =>
    have hx := List.pairwise_cons.1 h
    simp only [place]
    split
    · rename_i hlt
      refine List.pairwise_cons.2 ⟨fun y hy => ?_, h⟩
      rcases List.mem_cons.1 hy with rfl | hy
      · exact hlt
      · exact String.lt_trans hlt (hx.1 y hy)
    · split
      · rename_i hlt
        refine List.pairwise_cons.2 ⟨fun y hy => ?_, ih hx.2⟩
        rcases mem_place hy with rfl | hy
        · exact hlt
        · exact hx.1 y hy
      · rename_i hle hge
        have hname : name = x.1 := String.le_antisymm (String.not_lt.1 hge) (String.not_lt.1 hle)
        exact List.pairwise_cons.2 ⟨fun y hy => hname ▸ hx.1 y hy, hx.2⟩

/-- Stores a value under a name, over the value the name had before. -/
def insert (m : NameMap α) (name : String) (a : α) : NameMap α :=
  ⟨place name a m.entries, pairwise_place name a m.sorted⟩

def filter (keep : String → α → Bool) (m : NameMap α) : NameMap α :=
  ⟨m.entries.filter fun e => keep e.1 e.2, m.sorted.filter _⟩

def erase (m : NameMap α) (name : String) : NameMap α := m.filter fun n _ => n != name

def mapWithName (f : String → α → β) (m : NameMap α) : NameMap β :=
  ⟨m.entries.map fun e => (e.1, f e.1 e.2), by
    refine List.Pairwise.map _ (fun _ _ h => ?_) m.sorted
    exact h⟩

def map (f : α → β) (m : NameMap α) : NameMap β := m.mapWithName fun _ => f

/-- Collects entries in order; the last entry of a name stands. -/
def ofList (l : List (String × α)) : NameMap α := l.foldl (fun m e => m.insert e.1 e.2) empty

/-- Overwrites the entries of the first map by those of the second. -/
def override (m other : NameMap α) : NameMap α := other.entries.foldl (fun m e => m.insert e.1 e.2) m

/-! ### Reading a map back -/

@[simp] theorem get?_empty (name : String) : (empty : NameMap α).get? name = none := rfl

private theorem seek_place (name other : String) (a : α) {l : List (String × α)}
    (h : l.Pairwise fun x y => x.1 < y.1) :
    seek other (place name a l) = if other = name then some a else seek other l := by
  induction l with
  | nil => simp [place, seek]
  | cons x rest ih =>
    have hx := List.pairwise_cons.1 h
    simp only [place]
    split
    · simp [seek]
    · rename_i hle
      split
      · rename_i hlt
        have hne : name ≠ x.1 := fun heq => String.lt_irrefl name (heq ▸ hlt)
        simp only [seek, ih hx.2]
        by_cases hox : other = x.1
        · simp [hox, hne.symm]
        · simp [hox]
      · rename_i hge
        have hname : name = x.1 := String.le_antisymm (String.not_lt.1 hge) (String.not_lt.1 hle)
        by_cases ho : other = name
        · simp [seek, ho]
        · simp [seek, ho, ← hname]

theorem get?_insert (m : NameMap α) (name other : String) (a : α) :
    (m.insert name a).get? other = if other = name then some a else m.get? other :=
  seek_place name other a m.sorted

private theorem seek_eq_none_of_forall_lt {name : String} {l : List (String × α)} (h : ∀ e ∈ l, name < e.1) :
    seek name l = none := by
  induction l with
  | nil => rfl
  | cons x rest ih =>
    have hne : name ≠ x.1 := fun heq => String.lt_irrefl name (by simpa [← heq] using h x (by simp))
    rw [seek, if_neg hne]
    exact ih fun e he => h e (List.mem_cons_of_mem _ he)

private theorem seek_filter (keep : String → α → Bool) (name : String) {l : List (String × α)}
    (h : l.Pairwise fun x y => x.1 < y.1) :
    seek name (l.filter fun e => keep e.1 e.2) = (seek name l).filter (keep name) := by
  induction l with
  | nil => rfl
  | cons x rest ih =>
    have hx := List.pairwise_cons.1 h
    by_cases hn : name = x.1
    · have hrest : seek name (rest.filter fun e => keep e.1 e.2) = none :=
        seek_eq_none_of_forall_lt fun e he => hn ▸ hx.1 e (List.mem_filter.1 he).1
      by_cases hk : keep x.1 x.2
      · simp [hk, seek, hn, Option.filter]
      · simp [hk, seek, hn ▸ hrest, hn, Option.filter]
    · by_cases hk : keep x.1 x.2 <;> simp [hk, seek, hn, ih hx.2]

theorem get?_filter (m : NameMap α) (keep : String → α → Bool) (name : String) :
    (m.filter keep).get? name = (m.get? name).filter (keep name) :=
  seek_filter keep name m.sorted

theorem get?_erase (m : NameMap α) (name other : String) :
    (m.erase name).get? other = if other = name then none else m.get? other := by
  rw [erase, get?_filter]
  by_cases h : other = name <;> cases m.get? other <;> simp [h, Option.filter]

theorem get?_mapWithName (f : String → α → β) (m : NameMap α) (name : String) :
    (m.mapWithName f).get? name = (m.get? name).map (f name) := by
  simp only [get?, mapWithName]
  induction m.entries with
  | nil => rfl
  | cons x rest ih => by_cases h : name = x.1 <;> simp [seek, h, ih]

private theorem eq_of_seek_eq {l l' : List (String × α)} (h : l.Pairwise fun x y => x.1 < y.1)
    (h' : l'.Pairwise fun x y => x.1 < y.1) (heq : ∀ name, seek name l = seek name l') : l = l' := by
  induction l generalizing l' with
  | nil =>
    cases l' with
    | nil => rfl
    | cons y _ => simpa [seek] using heq y.1
  | cons x rest ih =>
    have hx := List.pairwise_cons.1 h
    cases l' with
    | nil => simpa [seek] using heq x.1
    | cons y rest' =>
      have hy := List.pairwise_cons.1 h'
      have hge : ¬ x.1 < y.1 := fun hlt => by
        have hself : seek x.1 (x :: rest) = some x.2 := by simp [seek]
        have hnone : seek x.1 (y :: rest') = none := seek_eq_none_of_forall_lt fun e he => by
          rcases List.mem_cons.1 he with rfl | he
          · exact hlt
          · exact String.lt_trans hlt (hy.1 e he)
        rw [heq x.1, hnone] at hself
        simp at hself
      have hle : ¬ y.1 < x.1 := fun hlt => by
        have hself : seek y.1 (y :: rest') = some y.2 := by simp [seek]
        have hnone : seek y.1 (x :: rest) = none := seek_eq_none_of_forall_lt fun e he => by
          rcases List.mem_cons.1 he with rfl | he
          · exact hlt
          · exact String.lt_trans hlt (hx.1 e he)
        rw [← heq y.1, hnone] at hself
        simp at hself
      have hname : x.1 = y.1 := String.le_antisymm (String.not_lt.1 hle) (String.not_lt.1 hge)
      have hvalue : x.2 = y.2 := by simpa [seek, hname] using heq x.1
      have htail : rest = rest' := by
        refine ih hx.2 hy.2 fun name => ?_
        by_cases hn : name = x.1
        · rw [seek_eq_none_of_forall_lt fun e he => hn ▸ hx.1 e he,
            seek_eq_none_of_forall_lt fun e he => (hn.trans hname) ▸ hy.1 e he]
        · simpa [seek, hn, hname ▸ hn] using heq name
      rw [htail, Prod.ext hname hvalue]

/-- Maps with the same value under every name are the same map. -/
theorem ext_get? {m m' : NameMap α} (h : ∀ name, m.get? name = m'.get? name) : m = m' := by
  have := eq_of_seek_eq m.sorted m'.sorted h
  cases m; cases m'; cases this; rfl

theorem mem_names_iff (m : NameMap α) (name : String) : name ∈ m.names ↔ (m.get? name).isSome := by
  simp only [names, get?]
  induction m.entries with
  | nil => simp [seek]
  | cons x rest ih => by_cases h : name = x.1 <;> simp [seek, h, ih]

end NameMap

end HostFleet
