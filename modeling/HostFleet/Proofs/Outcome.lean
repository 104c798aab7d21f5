import HostFleet.Log.Logged
import HostFleet.Proofs.List

/-!
# Results of work that may fail

When steps that are taken one after another succeed, and which of their failures is the failure of them all. Logged work
comes out as the same steps do without a log.
-/

namespace HostFleet

variable {ε α β : Type}

theorem isOk_eq_true_iff {x : Except ε α} : x.isOk = true ↔ ∃ a, x = .ok a := by
  cases x <;> simp [Except.isOk, Except.toBool]

theorem isOk_eq_false_iff {x : Except ε α} : x.isOk = false ↔ ∃ e, x = .error e := by
  cases x <;> simp [Except.isOk, Except.toBool]

theorem bind_eq_ok_iff {x : Except ε α} {next : α → Except ε β} {b : β} :
    x >>= next = .ok b ↔ ∃ a, x = .ok a ∧ next a = .ok b := by
  cases x with
  | error e => simp [bind, Except.bind]
  | ok a => simp [bind, Except.bind]

theorem bind_eq_error_iff {x : Except ε α} {next : α → Except ε β} {e : ε} :
    x >>= next = .error e ↔ x = .error e ∨ ∃ a, x = .ok a ∧ next a = .error e := by
  cases x with
  | error e' => simp [bind, Except.bind]
  | ok a => simp [bind, Except.bind]

theorem map_eq_ok_iff {x : Except ε α} {f : α → β} {b : β} : x.map f = .ok b ↔ ∃ a, x = .ok a ∧ f a = b := by
  cases x <;> simp [Except.map]

theorem map_eq_error_iff {x : Except ε α} {f : α → β} {e : ε} : x.map f = .error e ↔ x = .error e := by
  cases x <;> simp [Except.map]

theorem mapError_eq_ok_iff {ε' : Type} {x : Except ε α} {f : ε → ε'} {a : α} : x.mapError f = .ok a ↔ x = .ok a := by
  cases x <;> simp [Except.mapError]

theorem mapError_eq_error_iff {ε' : Type} {x : Except ε α} {f : ε → ε'} {e : ε'} :
    x.mapError f = .error e ↔ ∃ e', x = .error e' ∧ f e' = e := by
  cases x <;> simp [Except.mapError]

theorem mapM_eq_ok_iff {f : α → Except ε β} {l : List α} {l' : List β} :
    l.mapM f = .ok l' ↔ List.Forall₂ (fun a b => f a = .ok b) l l' := by
  induction l generalizing l' with
  | nil => simp [pure, Except.pure, eq_comm]
  | cons a rest ih =>
    rw [List.mapM_cons, bind_eq_ok_iff, List.forall₂_cons_left_iff]
    constructor
    · rintro ⟨b, hb, hrest⟩
      obtain ⟨more, hmore, hl'⟩ := bind_eq_ok_iff.1 hrest
      exact ⟨b, more, hb, ih.1 hmore, (Except.ok.inj hl').symm⟩
    · rintro ⟨b, more, hb, hmore, rfl⟩
      exact ⟨b, hb, bind_eq_ok_iff.2 ⟨more, ih.2 hmore, rfl⟩⟩

theorem forM_eq_ok_iff {f : α → Except ε PUnit} {l : List α} : l.forM f = .ok () ↔ ∀ a ∈ l, f a = .ok () := by
  induction l with
  | nil => simp [pure, Except.pure]
  | cons a rest ih =>
    show (f a >>= fun _ => rest.forM f) = .ok () ↔ _
    rw [bind_eq_ok_iff, List.forall_mem_cons, ← ih]
    constructor
    · intro h
      obtain ⟨_, hfirst, hrest⟩ := h
      exact ⟨hfirst, hrest⟩
    · intro h
      exact ⟨(), h.1, h.2⟩

/-- The failure of steps for the elements of a list is that of the first element that fails. -/
theorem exists_of_mapM_eq_error {f : α → Except ε β} {l : List α} {e : ε} (h : l.mapM f = .error e) :
    ∃ before a after, l = before ++ a :: after ∧ (∀ x ∈ before, ∃ b, f x = .ok b) ∧ f a = .error e := by
  induction l with
  | nil => simp [pure, Except.pure] at h
  | cons a rest ih =>
    rw [List.mapM_cons] at h
    cases ha : f a with
    | error e' =>
      rw [ha] at h
      obtain rfl := Except.error.inj h
      exact ⟨[], a, rest, rfl, by simp, ha⟩
    | ok b =>
      have hrest : rest.mapM f = .error e := by
        rw [ha] at h
        cases hmore : rest.mapM f with
        | error e' =>
          rw [hmore] at h
          exact congrArg _ (Except.error.inj h)
        | ok more => simp [hmore, bind, Except.bind, pure, Except.pure] at h
      obtain ⟨before, x, after, rfl, hbefore, hx⟩ := ih hrest
      exact ⟨a :: before, x, after, rfl, List.forall_mem_cons.2 ⟨⟨b, ha⟩, hbefore⟩, hx⟩

/-- Steps taken one after another fail at the first that fails on what those before it made. -/
theorem exists_of_foldlM_eq_error {f : β → α → Except ε β} {l : List α} {b : β} {e : ε} (h : l.foldlM f b = .error e) :
    ∃ before a after made, l = before ++ a :: after ∧ before.foldlM f b = .ok made ∧ f made a = .error e := by
  induction l generalizing b with
  | nil => simp [pure, Except.pure] at h
  | cons a rest ih =>
    rw [List.foldlM_cons] at h
    rcases bind_eq_error_iff.1 h with hfirst | ⟨made, hfirst, hrest⟩
    · exact ⟨[], a, rest, b, rfl, rfl, hfirst⟩
    · obtain ⟨before, x, after, last, rfl, hbefore, hx⟩ := ih hrest
      exact ⟨a :: before, x, after, last, rfl, bind_eq_ok_iff.2 ⟨made, hfirst, hbefore⟩, hx⟩

namespace Logged

theorem outcome_bind (x : Logged ε α) (next : α → Logged ε β) :
    (x >>= next).outcome = x.outcome >>= fun a => (next a).outcome := by
  obtain ⟨events, outcome⟩ := x
  cases outcome <;> rfl

theorem outcome_foldlM (f : β → α → Logged ε β) (l : List α) (b : β) :
    (l.foldlM f b).outcome = l.foldlM (fun b a => (f b a).outcome) b := by
  induction l generalizing b with
  | nil => rfl
  | cons a rest ih =>
    rw [List.foldlM_cons, outcome_bind, List.foldlM_cons]
    simp only [ih]

theorem outcome_mapM (f : α → Logged ε β) (l : List α) : (l.mapM f).outcome = l.mapM fun a => (f a).outcome := by
  induction l with
  | nil => rfl
  | cons a rest ih =>
    rw [List.mapM_cons, outcome_bind, List.mapM_cons, ← ih]
    simp only [outcome_bind]
    rfl

end Logged

end HostFleet
