import HostFleet.Log.Event

/-!
# Work that is logged

The result of work that may fail together with what it said on the way. What was said before a failure is kept.
-/

namespace HostFleet

/-- A result or a failure, and the events on the way to it. -/
structure Logged (ε α : Type) where
  events : List Log.Event
  outcome : Except ε α

namespace Logged

variable {ε α β : Type}

def of (outcome : Except ε α) : Logged ε α := ⟨[], outcome⟩

def say (event : Log.Event) : Logged ε Unit := ⟨[event], .ok ()⟩

def fail (e : ε) : Logged ε α := ⟨[], .error e⟩

/-- Goes on with a result; after a failure nothing more is done or said. -/
def andThen (x : Logged ε α) (next : α → Logged ε β) : Logged ε β :=
  match x.outcome with
  | .error e => ⟨x.events, .error e⟩
  | .ok a => ⟨x.events ++ (next a).events, (next a).outcome⟩

instance : Monad (Logged ε) where
  pure a := of (.ok a)
  bind := andThen

theorem andThen_ok (events : List Log.Event) (a : α) (next : α → Logged ε β) :
    andThen ⟨events, .ok a⟩ next = ⟨events ++ (next a).events, (next a).outcome⟩ := rfl

/-- Logged work may be regrouped freely. -/
theorem andThen_assoc {γ : Type} (x : Logged ε α) (f : α → Logged ε β) (g : β → Logged ε γ) :
    (x.andThen f).andThen g = x.andThen fun a => (f a).andThen g := by
  obtain ⟨events, outcome⟩ := x
  cases outcome with
  | error e => rfl
  | ok a =>
    simp only [andThen_ok]
    obtain ⟨more, result⟩ := f a
    cases result with
    | error e => rfl
    | ok b => simp only [andThen_ok, List.append_assoc]

instance : LawfulMonad (Logged ε) :=
  LawfulMonad.mk' (Logged ε)
    (fun x => by
      obtain ⟨events, outcome⟩ := x
      cases outcome with
      | error e => rfl
      | ok a =>
        change (⟨events ++ [], .ok a⟩ : Logged ε _) = ⟨events, .ok a⟩
        rw [List.append_nil])
    (fun _ _ => rfl)
    (fun x f g => andThen_assoc x f g)

def mapFailure {ε' : Type} (x : Logged ε α) (f : ε → ε') : Logged ε' α := ⟨x.events, x.outcome.mapError f⟩

end Logged

end HostFleet
