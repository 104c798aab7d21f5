import Mathlib.Data.List.Count
import Mathlib.Data.List.Forall2
import Mathlib.Data.List.Induction
import Mathlib.Data.List.Nodup

/-!
# Lists

Facts about lists that the theory of several parts of the program needs.
-/

namespace List

variable {α β : Type}

theorem exists_forall₂_iff {rel : α → β → Prop} {l : List α} :
    (∃ l', Forall₂ rel l l') ↔ ∀ a ∈ l, ∃ b, rel a b := by
  induction l with
  | nil => exact ⟨fun _ => by simp, fun _ => ⟨[], .nil⟩⟩
  | cons a rest ih =>
    rw [forall_mem_cons, ← ih]
    constructor
    · rintro ⟨l', hl'⟩
      obtain ⟨b, more, hb, hmore, rfl⟩ := forall₂_cons_left_iff.1 hl'
      exact ⟨⟨b, hb⟩, more, hmore⟩
    · rintro ⟨⟨b, hb⟩, more, hmore⟩
      exact ⟨b :: more, .cons hb hmore⟩

theorem forall₂_of_flatMap_pair {f g : α → β} {l l' : List α}
    (h : (l.flatMap fun a => [f a, g a]) = l'.flatMap fun a => [f a, g a]) :
    Forall₂ (fun a a' => f a = f a' ∧ g a = g a') l l' := by
  induction l generalizing l' with
  | nil =>
    cases l' with
    | nil => exact .nil
    | cons a' rest' => simp at h
  | cons a rest ih =>
    cases l' with
    | nil => simp at h
    | cons a' rest' =>
      simp only [flatMap_cons, cons_append, nil_append, cons.injEq] at h
      exact .cons ⟨h.1, h.2.1⟩ (ih h.2.2)

theorem getLast?_filterMap_cons (f : α → Option β) (a : α) (rest : List α) :
    ((a :: rest).filterMap f).getLast? = (rest.filterMap f).getLast?.or (f a) := by
  cases hfirst : f a with
  | none => rw [filterMap_cons_none hfirst, Option.or_none]
  | some b =>
    rw [filterMap_cons_some hfirst, getLast?_cons]
    cases (rest.filterMap f).getLast? <;> rfl

theorem count_flatMap_of_unique [DecidableEq β] {l : List α} {f : α → List β} {a : α} {b : β} (hl : l.Nodup)
    (ha : a ∈ l) (h : ∀ other ∈ l, b ∈ f other → other = a) : (l.flatMap f).count b = (f a).count b := by
  obtain ⟨earlier, later, rfl⟩ := append_of_mem ha
  obtain ⟨hout, -⟩ := nodup_cons.1 (nodup_middle.1 hl)
  have hothers : ((earlier ++ later).flatMap f).count b = 0 := by
    refine count_eq_zero_of_not_mem fun hmem => ?_
    obtain ⟨other, hother, hb⟩ := mem_flatMap.1 hmem
    have hsame : other = a := h other (perm_middle.symm.subset (mem_cons_of_mem a hother)) hb
    exact hout (hsame ▸ hother)
  rw [flatMap_append, count_append] at hothers
  rw [flatMap_append, flatMap_cons, count_append, count_append]
  omega

/-! ### Lists without their repeats -/

section EraseDups

variable [DecidableEq α] [DecidableEq β]

theorem eraseDups_concat (l : List α) (a : α) : (l ++ [a]).eraseDups = l.eraseDups ++ if a ∈ l then [] else [a] := by
  rw [eraseDups_append, cons_removeAll]
  by_cases h : a ∈ l <;> simp [h, eraseDups_cons]

theorem eraseDups_of_nodup {l : List α} (h : l.Nodup) : l.eraseDups = l := by
  induction l using reverseRecOn with
  | nil => rfl
  | append_singleton l a ih =>
    rw [nodup_append_comm, singleton_append, nodup_cons] at h
    rw [eraseDups_concat, ih h.2, if_neg h.1]

theorem eraseDups_map {f : α → β} (hf : Function.Injective f) (l : List α) :
    (l.map f).eraseDups = l.eraseDups.map f := by
  induction l using reverseRecOn with
  | nil => rfl
  | append_singleton l a ih =>
    rw [map_append, map_singleton, eraseDups_concat, eraseDups_concat, map_append, ih, apply_ite (map f),
      map_nil, map_singleton]
    simp only [mem_map_of_injective hf]

omit [DecidableEq α] in
theorem eraseDups_flatMap {l : List α} {f : α → List β} (h : l.Pairwise fun a b => (f a).Disjoint (f b)) :
    (l.flatMap f).eraseDups = l.flatMap fun a => (f a).eraseDups := by
  induction l with
  | nil => rfl
  | cons a rest ih =>
    obtain ⟨hfirst, hrest⟩ := pairwise_cons.1 h
    have hkept : (rest.flatMap f).removeAll (f a) = rest.flatMap f := by
      refine filter_eq_self.2 fun b hb => ?_
      obtain ⟨other, hother, hb⟩ := mem_flatMap.1 hb
      simpa using fun hmem => hfirst other hother hmem hb
    rw [flatMap_cons, flatMap_cons, eraseDups_append, hkept, ih hrest]

end EraseDups

end List
