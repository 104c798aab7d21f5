import HostFleet.Proofs.List
import HostFleet.Registry

/-!
# Modules that occur more than once

The report on a module list is made in one pass, which keeps the modules that it has read. What one more module adds to the
report depends only on how often it came before, and everything here follows from that by adding modules at the end. The
report names every occurrence of a module but the first. So a module that occurs twice is named once, in the order of second
occurrences, and one that occurs more often is named again for every further occurrence.
-/

namespace HostFleet

/-- A list names exactly what is wanted, each once and in order. -/
structure EachOnce {α : Type} (wanted : α → Prop) (before : α → α → Prop) (named : List α) : Prop where
  mem_iff : ∀ a, a ∈ named ↔ wanted a
  once : named.Nodup
  ordered : named.Pairwise before

/-- Where all is well but for repeats, all is well exactly if there are none. -/
theorem EachOnce.iff_nodup {α : Type} [DecidableEq α] {wanted : α → Prop} {before : α → α → Prop} {named : List α}
    (h : EachOnce wanted before named.eraseDups) : EachOnce wanted before named ↔ named.Nodup := by
  refine ⟨EachOnce.once, fun hnodup => ?_⟩
  rwa [List.eraseDups_of_nodup hnodup] at h

namespace Composition

/-! ### The report in one pass -/

theorem repeatedFrom_congr {seen seen' : List ModuleRef} (h : ∀ m, m ∈ seen ↔ m ∈ seen') (modules : List ModuleRef) :
    repeatedFrom seen modules = repeatedFrom seen' modules := by
  induction modules generalizing seen seen' with
  | nil => rfl
  | cons m rest ih =>
    have hmore : ∀ other, other ∈ m :: seen ↔ other ∈ m :: seen' := by simp [h]
    rw [repeatedFrom, repeatedFrom, ih h, ih hmore]
    simp only [h]

/-- After a part of the list the pass goes on with what it had read before and in that part. -/
theorem repeatedFrom_append (seen earlier later : List ModuleRef) :
    repeatedFrom seen (earlier ++ later) = repeatedFrom seen earlier ++ repeatedFrom (seen ++ earlier) later := by
  induction earlier generalizing seen with
  | nil => rw [List.nil_append, List.append_nil]; rfl
  | cons m rest ih =>
    by_cases hseen : m ∈ seen
    · have hread : ∀ other, other ∈ seen ++ rest ↔ other ∈ seen ++ m :: rest := by
        intro other
        by_cases hother : other = m <;> simp [hother, hseen]
      rw [List.cons_append, repeatedFrom, repeatedFrom, if_pos hseen, if_pos hseen, ih, repeatedFrom_congr hread]
      rfl
    · have hread : ∀ other, other ∈ m :: seen ++ rest ↔ other ∈ seen ++ m :: rest := by simp [or_left_comm]
      rw [List.cons_append, repeatedFrom, repeatedFrom, if_neg hseen, if_neg hseen, ih, repeatedFrom_congr hread]

theorem repeated_concat (modules : List ModuleRef) (m : ModuleRef) :
    repeated (modules ++ [m]) = repeated modules ++ if m ∈ modules then [m] else [] := by
  rw [repeated, repeatedFrom_append]
  rfl

/-! ### Occurrences by number -/

/-- The occurrences of modules that pass a test of how often the module came before, in order. -/
def occurrences (test : Nat → Bool) (modules : List ModuleRef) : List ModuleRef :=
  (modules.zipIdx.filter fun e => test ((modules.take e.2).count e.1)).map Prod.fst

theorem occurrences_concat (test : Nat → Bool) (modules : List ModuleRef) (m : ModuleRef) :
    occurrences test (modules ++ [m]) = occurrences test modules ++ if test (modules.count m) then [m] else [] := by
  have hearlier : ∀ e ∈ modules.zipIdx,
      test (((modules ++ [m]).take e.2).count e.1) = test ((modules.take e.2).count e.1) := by
    intro e he
    have hplace : e.2 < modules.length := (List.getElem?_eq_some_iff.1 (List.mem_zipIdx_iff_getElem?.1 he)).1
    rw [List.take_append_of_le_length (Nat.le_of_lt hplace)]
  rw [occurrences, List.zipIdx_append, List.filter_append, List.map_append, List.filter_congr hearlier]
  by_cases h : test (modules.count m) <;> simp [occurrences, h]

theorem count_occurrences (test : Nat → Bool) (modules : List ModuleRef) (m : ModuleRef) :
    (occurrences test modules).count m = (List.range (modules.count m)).countP test := by
  induction modules using List.reverseRecOn with
  | nil => rfl
  | append_singleton modules last ih =>
    rw [occurrences_concat, List.count_append, List.count_append, ih]
    by_cases hlast : last = m
    · subst hlast
      rw [List.count_singleton_self, List.range_succ, List.countP_append]
      by_cases h : test (modules.count last) <;> simp [h]
    · rw [List.count_eq_zero_of_not_mem (l := [last]) (by simpa using Ne.symm hlast)]
      by_cases h : test (modules.count last) <;> simp [h, hlast]

theorem repeated_eq_occurrences (modules : List ModuleRef) : repeated modules = occurrences (0 < ·) modules := by
  induction modules using List.reverseRecOn with
  | nil => rfl
  | append_singleton modules m ih =>
    rw [repeated_concat, occurrences_concat, ih]
    simp only [decide_eq_true_eq, List.count_pos_iff]

theorem count_repeated (modules : List ModuleRef) (m : ModuleRef) : (repeated modules).count m = modules.count m - 1 := by
  rw [repeated_eq_occurrences, count_occurrences]
  cases modules.count m with
  | zero => rfl
  | succ n =>
    rw [List.range_succ_eq_map, List.countP_cons, List.countP_map]
    simp [Function.comp_def]

theorem mem_repeated_iff {modules : List ModuleRef} {m : ModuleRef} : m ∈ repeated modules ↔ 2 ≤ modules.count m := by
  rw [← List.count_pos_iff, count_repeated]
  omega

/-- Without its own repeats the report lists the second occurrences. -/
theorem eraseDups_repeated (modules : List ModuleRef) : (repeated modules).eraseDups = occurrences (· = 1) modules := by
  induction modules using List.reverseRecOn with
  | nil => rfl
  | append_singleton modules m ih =>
    rw [repeated_concat, occurrences_concat]
    by_cases hmem : m ∈ modules
    · have hcount : 0 < modules.count m := List.count_pos_iff.2 hmem
      rw [if_pos hmem, List.eraseDups_concat, ih]
      simp only [mem_repeated_iff, decide_eq_true_eq]
      by_cases htwice : 2 ≤ modules.count m
      · rw [if_pos htwice, if_neg (by omega)]
      · rw [if_neg htwice, if_pos (by omega)]
    · rw [if_neg hmem, List.append_nil, ih, List.count_eq_zero_of_not_mem hmem]
      simp

/-! ### Second occurrences -/

/-- A module occurs for the second time at a place. -/
def SecondAt (modules : List ModuleRef) (m : ModuleRef) (place : Nat) : Prop :=
  modules[place]? = some m ∧ (modules.take place).count m = 1

/-- The second occurrence of a module comes before that of another. -/
def SecondBefore (modules : List ModuleRef) (m m' : ModuleRef) : Prop :=
  ∃ place place', SecondAt modules m place ∧ SecondAt modules m' place' ∧ place < place'

/-- A report names the modules that occur more than once, each once, in the order of their second occurrences. -/
def ReportedOnce (modules report : List ModuleRef) : Prop :=
  EachOnce (fun m => 2 ≤ modules.count m) (SecondBefore modules) report

theorem pairwise_occurrences_second (modules : List ModuleRef) :
    (occurrences (· = 1) modules).Pairwise (SecondBefore modules) := by
  have hplaces : modules.zipIdx.Pairwise fun e e' => e.2 < e'.2 := by
    rw [← List.pairwise_map (f := Prod.snd), List.zipIdx_map_snd]
    exact List.pairwise_lt_range'
  have hsecond : ∀ e ∈ modules.zipIdx.filter fun e => (modules.take e.2).count e.1 = 1, SecondAt modules e.1 e.2 := by
    intro e he
    obtain ⟨hmem, hcount⟩ := List.mem_filter.1 he
    exact ⟨List.mem_zipIdx_iff_getElem?.1 hmem, of_decide_eq_true hcount⟩
  refine List.pairwise_map.2 ((hplaces.filter _).imp_of_mem ?_)
  intro e e' he he' hlt
  exact ⟨e.2, e'.2, hsecond e he, hsecond e' he', hlt⟩

theorem count_occurrences_second_le (modules : List ModuleRef) (m : ModuleRef) :
    (occurrences (· = 1) modules).count m ≤ 1 := by
  rw [count_occurrences]
  exact List.nodup_iff_count_le_one.1 List.nodup_range 1

theorem reportedOnce_eraseDups (modules : List ModuleRef) : ReportedOnce modules (repeated modules).eraseDups := by
  refine ⟨fun m => ?_, ?_, ?_⟩
  · rw [List.mem_eraseDups, mem_repeated_iff]
  · rw [eraseDups_repeated]
    exact List.nodup_iff_count_le_one.2 (count_occurrences_second_le modules)
  · rw [eraseDups_repeated]
    exact pairwise_occurrences_second modules

theorem nodup_repeated_iff {modules : List ModuleRef} : (repeated modules).Nodup ↔ ∀ m, modules.count m ≤ 2 := by
  simp only [List.nodup_iff_count_le_one, count_repeated, Nat.sub_le_iff_le_add]

theorem reportedOnce_repeated_iff (modules : List ModuleRef) :
    ReportedOnce modules (repeated modules) ↔ ∀ m, modules.count m ≤ 2 :=
  (reportedOnce_eraseDups modules).iff_nodup.trans nodup_repeated_iff

end Composition

end HostFleet
