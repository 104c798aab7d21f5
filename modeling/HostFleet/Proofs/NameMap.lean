import Mathlib.Data.List.Nodup
import HostFleet.NameMap

/-!
# Collected and overwritten maps

What the maps built by `ofList` and by `override` hold under a name. Both insert entries one after another, so both rest
on what a run of insertions leaves behind. A `view` shows what of a map passes a test.
-/

namespace HostFleet.NameMap

variable {α : Type}

theorem contains_eq_true_iff (m : NameMap α) (name : String) : m.contains name = true ↔ name ∈ m.names :=
  (mem_names_iff m name).symm

/-! ### Names and entries -/

theorem mem_entries_iff (m : NameMap α) (name : String) (a : α) : (name, a) ∈ m.entries ↔ m.get? name = some a := by
  obtain ⟨entries, sorted⟩ := m
  induction entries with
  | nil => simp [get?, seek]
  | cons e rest ih =>
    obtain ⟨hfirst, hrest⟩ := List.pairwise_cons.1 sorted
    have hseek : (name, a) ∈ rest ↔ seek name rest = some a := ih hrest
    rw [get?, seek, List.mem_cons]
    by_cases hname : name = e.1
    · have hout : (name, a) ∉ rest := fun hmem => String.lt_irrefl name (by simpa [hname] using hfirst _ hmem)
      rw [if_pos hname, hname]
      simp [hname ▸ hout, Prod.ext_iff, eq_comm]
    · have hother : (name, a) ≠ e := fun heq => hname (congrArg Prod.fst heq)
      simp [hname, hother, hseek]

theorem names_map {β : Type} (f : α → β) (m : NameMap α) : (m.map f).names = m.names := by
  simp [names, map, mapWithName]

theorem nodup_names (m : NameMap α) : m.names.Nodup := by
  have hne : m.entries.Pairwise fun x y => x.1 ≠ y.1 := by
    refine m.sorted.imp fun {x y} hlt heq => ?_
    exact String.lt_irrefl y.1 (heq ▸ hlt)
  exact List.pairwise_map.2 hne

/-- Names are listed in their order, so the same names are the same list. -/
theorem names_eq_of_mem_iff {β : Type} {m : NameMap α} {m' : NameMap β} (h : ∀ name, name ∈ m.names ↔ name ∈ m'.names) :
    m.names = m'.names := by
  have hmarks : m.map (fun _ => ()) = m'.map fun _ => () := by
    refine ext_get? fun name => ?_
    have hname := h name
    rw [mem_names_iff, mem_names_iff] at hname
    rw [map, map, get?_mapWithName, get?_mapWithName]
    cases hget : m.get? name <;> cases hget' : m'.get? name <;> simp_all
  rw [← names_map (fun _ => ()) m, hmarks, names_map]

theorem names_filter (keep : String → Bool) (m : NameMap α) :
    (m.filter fun name _ => keep name).names = m.names.filter keep := by
  rw [names, names, filter, List.filter_map]
  rfl

/-! ### Looking through a test -/

/-- What of a map passes a test, with every value stripped of what only the test looks at. -/
def view {β : Type} (keep : α → Bool) (strip : α → β) (m : NameMap α) : NameMap β := (m.filter fun _ => keep).map strip

theorem get?_view {β : Type} (keep : α → Bool) (strip : α → β) (m : NameMap α) (name : String) :
    (m.view keep strip).get? name = ((m.get? name).filter keep).map strip := by
  rw [view, map, get?_mapWithName, get?_filter]

/-- Two maps differ only under names where neither holds anything but hidden values. -/
def EqAside (hidden : α → Prop) (m m' : NameMap α) : Prop :=
  ∀ name, m.get? name = m'.get? name ∨
    (∀ a, m.get? name = some a → hidden a) ∧ ∀ a, m'.get? name = some a → hidden a

theorem eqAside_insert {hidden : α → Prop} {m : NameMap α} {name : String} {a : α} (hnew : hidden a)
    (hold : ∀ old, m.get? name = some old → hidden old) : m.EqAside hidden (m.insert name a) := by
  intro other
  rw [get?_insert]
  by_cases hother : other = name
  · subst hother
    exact .inr ⟨hold, by simpa using hnew⟩
  · exact .inl (by rw [if_neg hother])

theorem eqAside_erase {hidden : α → Prop} {m : NameMap α} {name : String}
    (hold : ∀ old, m.get? name = some old → hidden old) : m.EqAside hidden (m.erase name) := by
  intro other
  rw [get?_erase]
  by_cases hother : other = name
  · subst hother
    exact .inr ⟨hold, by simp⟩
  · exact .inl (by rw [if_neg hother])

theorem view_eq_of_eqAside {β : Type} {keep : α → Bool} {m m' : NameMap α} (h : m.EqAside (fun a => keep a = false) m')
    (strip : α → β) : m.view keep strip = m'.view keep strip := by
  have hnone : ∀ found : Option α, (∀ a, found = some a → keep a = false) → found.filter keep = none := by
    intro found hhidden
    cases found with
    | none => rfl
    | some a => simp [Option.filter, hhidden a rfl]
  refine ext_get? fun name => ?_
  rw [get?_view, get?_view]
  rcases h name with hsame | ⟨hleft, hright⟩
  · rw [hsame]
  · rw [hnone _ hleft, hnone _ hright]

/-! ### Collecting a list -/

private theorem mem_or_of_get?_foldl_insert {l : List (String × α)} {m : NameMap α} {name : String} {a : α}
    (h : (l.foldl (fun m e => m.insert e.1 e.2) m).get? name = some a) : (name, a) ∈ l ∨ m.get? name = some a := by
  induction l generalizing m with
  | nil => exact .inr h
  | cons e rest ih =>
    rcases ih h with hrest | hinsert
    · exact .inl (List.mem_cons_of_mem _ hrest)
    · rw [get?_insert] at hinsert
      split at hinsert
      · rename_i hname
        obtain rfl := Option.some.inj hinsert
        exact .inl (by simp [hname])
      · exact .inr hinsert

/-- A collected map holds only what was collected. -/
theorem mem_of_get?_ofList {l : List (String × α)} {name : String} {a : α} (h : (ofList l).get? name = some a) :
    (name, a) ∈ l :=
  (mem_or_of_get?_foldl_insert h).resolve_right (by simp)

private theorem isSome_get?_foldl_insert (l : List (String × α)) (m : NameMap α) (name : String) :
    ((l.foldl (fun m e => m.insert e.1 e.2) m).get? name).isSome ↔ name ∈ l.map Prod.fst ∨ (m.get? name).isSome := by
  induction l generalizing m with
  | nil => simp
  | cons e rest ih =>
    rw [List.foldl_cons, ih, get?_insert]
    by_cases hname : name = e.1 <;> simp [hname]

/-- A collected map has exactly the collected names. -/
theorem mem_names_ofList (l : List (String × α)) (name : String) : name ∈ (ofList l).names ↔ name ∈ l.map Prod.fst := by
  rw [mem_names_iff, ofList, isSome_get?_foldl_insert]
  simp

theorem get?_ofList_eq_some_iff {l : List (String × α)} (hl : (l.map Prod.fst).Nodup) {name : String} {a : α} :
    (ofList l).get? name = some a ↔ (name, a) ∈ l := by
  refine ⟨mem_of_get?_ofList, fun hmem => ?_⟩
  have hname : name ∈ (ofList l).names := (mem_names_ofList l name).2 (List.mem_map_of_mem hmem)
  obtain ⟨b, hb⟩ := Option.isSome_iff_exists.1 ((mem_names_iff _ name).1 hname)
  have hsame : (name, b) = (name, a) := List.inj_on_of_nodup_map hl (mem_of_get?_ofList hb) hmem rfl
  rw [hb, (Prod.mk.inj hsame).2]

/-! ### Overwriting -/

private theorem get?_foldl_insert_of_pairwise {l : List (String × α)} (hl : l.Pairwise fun x y => x.1 < y.1) (m : NameMap α)
    (name : String) : (l.foldl (fun m e => m.insert e.1 e.2) m).get? name = (seek name l).or (m.get? name) := by
  induction l generalizing m with
  | nil => simp [seek]
  | cons e rest ih =>
    obtain ⟨hfirst, hrest⟩ := List.pairwise_cons.1 hl
    rw [List.foldl_cons, ih hrest, get?_insert, seek]
    by_cases hname : name = e.1
    · have habsent : seek name rest = none := by
        have hnot : name ∉ (⟨rest, hrest⟩ : NameMap α).names := by
          intro hmem
          obtain ⟨e', he', hsame⟩ := List.mem_map.1 hmem
          exact String.lt_irrefl name (by simpa [hname, hsame] using hfirst e' he')
        rw [mem_names_iff] at hnot
        simpa [get?] using hnot
      simp [hname, hname ▸ habsent]
    · simp [hname]

/-- In an overwritten map the entries of the second map stand before those of the first. -/
theorem get?_override (m other : NameMap α) (name : String) :
    (m.override other).get? name = (other.get? name).or (m.get? name) :=
  get?_foldl_insert_of_pairwise other.sorted m name

end HostFleet.NameMap
