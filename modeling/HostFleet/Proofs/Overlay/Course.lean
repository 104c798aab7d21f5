import Mathlib.Logic.Relation
import HostFleet.Proofs.Overlay.Call

/-!
# The course of a run

`Problem.solve` gives the end of a run and not the way there. Here the way is laid open: `Problem.next` takes a run from one
moment to the next, with the recipes that wait for an answer in a list, and nothing bounds how many there are. What holds at
every moment is proved of one step at a time, by cases on `Problem.Turn`. The course of a run is finite and ends in what
`Problem.solve` gives: wherever a run makes a call, it goes on to the moment at which the solver's own result for that call
is the answer.
-/

namespace HostFleet.Overlay

variable {α : Type}

/-- The two sets in which a recipe looks packages up: the one below its layer and the finished one. -/
inductive Side where
  | below
  | finished
  deriving DecidableEq

/-- The recipe that begins with a look-up. -/
def Recipe.ask : Side → String → (Except Fault α → Recipe α) → Recipe α
  | .below => .prev
  | .finished => .final

/-- A recipe that waits for the answer to a look-up. -/
structure Waiting (α : Type) where
  key : Key
  side : Side
  name : String
  next : Except Fault α → Recipe α

/-- What the solver is at. -/
inductive Activity (α : Type) where
  /-- The next name of the finished set is to be taken up. -/
  | collect
  /-- A look-up begins. -/
  | seek (name : String) (height : Nat) (requester : String)
  | force (key : Key)
  /-- The recipe of a binding is at work, with so much of it left. -/
  | cook (key : Key) (rest : Recipe α)
  | answer (result : Except Fault α)
  | ended (result : Except Fault (List (String × α)))

/-- Where a run stands: what the solver is at, the recipes that wait with the latest first, what the solver knows, the name
of the finished set that is being looked up, and the names before and after it. -/
structure Moment (α : Type) where
  activity : Activity α
  waiting : List (Waiting α)
  state : State α
  wanted : String
  found : List (String × α)
  todo : List String

namespace Moment

/-- The call that the solver is at is over. -/
def reply (m : Moment α) (outcome : Except Fault α × State α) : Moment α :=
  { m with activity := .answer outcome.1, state := outcome.2 }

/-- The bindings whose recipes have begun and are not done, the innermost first. -/
def active (m : Moment α) : List Key :=
  match m.activity with
  | .cook key _ => key :: m.waiting.map Waiting.key
  | _ => m.waiting.map Waiting.key

end Moment

namespace Problem

variable (p : Problem α)

/-- The height below which the recipe of a key looks packages up. -/
def height (key : Key) : Side → Nat
  | .below => key.layer
  | .finished => p.layers.length

def start : Moment α := ⟨.collect, [], {}, "", [], p.names⟩

/-- The moment at which a recipe has begun to wait for a look-up. -/
def asking (m : Moment α) (key : Key) (side : Side) (name : String) (rest : Except Fault α → Recipe α) : Moment α :=
  { m with
    activity := .seek name (p.height key side) (p.scope key).frame
    waiting := ⟨key, side, name, rest⟩ :: m.waiting }

/-- The moment after a given one, if the run is not over. -/
def next (m : Moment α) : Option (Moment α) :=
  match m.activity with
  | .collect =>
    match m.todo with
    | [] => some { m with activity := .ended (.ok m.found.reverse) }
    | name :: rest =>
      some { m with activity := .seek name p.layers.length "<final>", wanted := name, todo := rest }
  | .seek name height requester =>
    match p.sight name height with
    | .bound key => some { m with activity := .force key }
    | .given a => some (m.reply (.ok a, m.state))
    | .absent => some (m.reply (.error (.missing name requester), m.state))
  | .force key =>
    match m.state.found? key with
    | some a => some (m.reply (.ok a, m.state))
    | none =>
      if key ∈ m.state.running then some (m.reply (.error (.cycle (p.cyclePath m.state.running key)), m.state))
      else
        match p.stored? key with
        | some binding =>
          some { m with activity := .cook key (binding.recipe (p.scope key)), state := m.state.push key }
        | none => some (m.reply (.error (.missing key.name "<solver>"), m.state))
  | .cook key (.done result) => some (m.reply (result, m.state.pop key result))
  | .cook key (.remark text rest) => some { m with activity := .cook key rest, state := m.state.remark text }
  | .cook key (.hasPrev name rest) => some { m with activity := .cook key (rest (p.defined key.layer name)) }
  | .cook key (.prev name rest) => some (p.asking m key .below name rest)
  | .cook key (.final name rest) => some (p.asking m key .finished name rest)
  | .answer result =>
    match m.waiting, result with
    | w :: others, result => some { m with activity := .cook w.key (w.next result), waiting := others }
    | [], .ok a => some { m with activity := .collect, found := (m.wanted, a) :: m.found }
    | [], .error e => some { m with activity := .ended (.error e) }
  | .ended _ => none

/-- A run that is at the first moment comes to the second, at once or later. -/
def Leads : Moment α → Moment α → Prop := Relation.ReflTransGen fun m m' => p.next m = some m'

/-- A moment of the run that solves the problem. -/
def Meets (m : Moment α) : Prop := p.Leads p.start m

/-- The moment so many steps later, or the last one if the run is over before. -/
def onward (p : Problem α) : (steps : Nat) → Moment α → Moment α
  | 0, m => m
  | steps + 1, m =>
    match p.next m with
    | some m' => p.onward steps m'
    | none => m

/-! ### The steps by name -/

/-- What can follow a moment, and when. -/
inductive Turn (m : Moment α) : Moment α → Prop where
  | finish : m.activity = .collect → m.todo = [] → Turn m { m with activity := .ended (.ok m.found.reverse) }
  | want {name : String} {rest : List String} : m.activity = .collect → m.todo = name :: rest →
    Turn m { m with activity := .seek name p.layers.length "<final>", wanted := name, todo := rest }
  | sighted {name : String} {height : Nat} {requester : String} {key : Key} :
    m.activity = .seek name height requester → p.sight name height = .bound key → Turn m { m with activity := .force key }
  | given {name : String} {height : Nat} {requester : String} {a : α} :
    m.activity = .seek name height requester → p.sight name height = .given a → Turn m (m.reply (.ok a, m.state))
  | absent {name : String} {height : Nat} {requester : String} :
    m.activity = .seek name height requester → p.sight name height = .absent →
      Turn m (m.reply (.error (.missing name requester), m.state))
  | known {key : Key} {a : α} : m.activity = .force key → m.state.found? key = some a → Turn m (m.reply (.ok a, m.state))
  | cycle {key : Key} : m.activity = .force key → m.state.found? key = none → key ∈ m.state.running →
    Turn m (m.reply (.error (.cycle (p.cyclePath m.state.running key)), m.state))
  | unbound {key : Key} : m.activity = .force key → m.state.found? key = none → key ∉ m.state.running →
    p.stored? key = none → Turn m (m.reply (.error (.missing key.name "<solver>"), m.state))
  | begin {key : Key} {binding : Binding α} : m.activity = .force key → m.state.found? key = none →
    key ∉ m.state.running → p.stored? key = some binding →
      Turn m { m with activity := .cook key (binding.recipe (p.scope key)), state := m.state.push key }
  | done {key : Key} {result : Except Fault α} : m.activity = .cook key (.done result) →
    Turn m (m.reply (result, m.state.pop key result))
  | remark {key : Key} {text : String} {rest : Recipe α} : m.activity = .cook key (.remark text rest) →
    Turn m { m with activity := .cook key rest, state := m.state.remark text }
  | hasPrev {key : Key} {name : String} {rest : Bool → Recipe α} : m.activity = .cook key (.hasPrev name rest) →
    Turn m { m with activity := .cook key (rest (p.defined key.layer name)) }
  | ask {key : Key} {side : Side} {name : String} {rest : Except Fault α → Recipe α} :
    m.activity = .cook key (.ask side name rest) → Turn m (p.asking m key side name rest)
  | resume {result : Except Fault α} {w : Waiting α} {others : List (Waiting α)} : m.activity = .answer result →
    m.waiting = w :: others → Turn m { m with activity := .cook w.key (w.next result), waiting := others }
  | keep {a : α} : m.activity = .answer (.ok a) → m.waiting = [] →
    Turn m { m with activity := .collect, found := (m.wanted, a) :: m.found }
  | fail {e : Fault} : m.activity = .answer (.error e) → m.waiting = [] → Turn m { m with activity := .ended (.error e) }

variable {p} {m m' m'' : Moment α}

theorem Turn.next_eq (h : p.Turn m m') : p.next m = some m' := by
  cases h with
  | @ask key side name rest hact => cases side <;> simp_all [next, Recipe.ask]
  | _ => simp_all [next]

theorem exists_turn (h : ∀ result, m.activity ≠ .ended result) : ∃ m', p.Turn m m' := by
  cases hact : m.activity with
  | collect =>
    cases htodo : m.todo with
    | nil => exact ⟨_, .finish hact htodo⟩
    | cons name rest => exact ⟨_, .want hact htodo⟩
  | seek name height requester =>
    cases hsight : p.sight name height with
    | bound key => exact ⟨_, .sighted hact hsight⟩
    | given a => exact ⟨_, .given hact hsight⟩
    | absent => exact ⟨_, .absent hact hsight⟩
  | force key =>
    cases hfound : m.state.found? key with
    | some a => exact ⟨_, .known hact hfound⟩
    | none =>
      by_cases hcycle : key ∈ m.state.running
      · exact ⟨_, .cycle hact hfound hcycle⟩
      cases hbinding : p.stored? key with
      | some binding => exact ⟨_, .begin hact hfound hcycle hbinding⟩
      | none => exact ⟨_, .unbound hact hfound hcycle hbinding⟩
  | cook key rest =>
    cases rest with
    | done result => exact ⟨_, .done hact⟩
    | remark text rest => exact ⟨_, .remark hact⟩
    | hasPrev name rest => exact ⟨_, .hasPrev hact⟩
    | prev name rest => exact ⟨_, @Turn.ask _ p m key .below name rest hact⟩
    | final name rest => exact ⟨_, @Turn.ask _ p m key .finished name rest hact⟩
  | answer result =>
    cases hwaiting : m.waiting with
    | cons w others => exact ⟨_, .resume hact hwaiting⟩
    | nil =>
      cases result with
      | ok a => exact ⟨_, .keep hact hwaiting⟩
      | error e => exact ⟨_, .fail hact hwaiting⟩
  | ended result => exact absurd hact (h result)

theorem next_of_ended {result : Except Fault (List (String × α))} (h : m.activity = .ended result) : p.next m = none := by
  simp [next, h]

theorem turn_iff : p.Turn m m' ↔ p.next m = some m' := by
  refine ⟨Turn.next_eq, fun h => ?_⟩
  have hgoes : ∀ result, m.activity ≠ .ended result := by
    intro result hact
    rw [next_of_ended hact] at h
    simp at h
  obtain ⟨m₁, hturn⟩ := exists_turn hgoes
  obtain rfl : m₁ = m' := Option.some.inj (hturn.next_eq.symm.trans h)
  exact hturn

namespace Leads

theorem refl (m : Moment α) : p.Leads m m := Relation.ReflTransGen.refl

theorem trans (h : p.Leads m m') (h' : p.Leads m' m'') : p.Leads m m'' := Relation.ReflTransGen.trans h h'

theorem head (h : p.Turn m m') (h' : p.Leads m' m'') : p.Leads m m'' := Relation.ReflTransGen.head h.next_eq h'

theorem tail (h : p.Leads m m') (h' : p.Turn m' m'') : p.Leads m m'' := Relation.ReflTransGen.tail h h'.next_eq

theorem onward (steps : Nat) (m : Moment α) : p.Leads m (p.onward steps m) := by
  induction steps generalizing m with
  | zero => exact refl m
  | succ steps ih =>
    rw [Problem.onward]
    cases hnext : p.next m with
    | none => exact refl m
    | some m' => exact Relation.ReflTransGen.head hnext (ih m')

theorem exists_onward (h : p.Leads m m') : ∃ steps, p.onward steps m = m' := by
  induction h using Relation.ReflTransGen.head_induction_on with
  | refl => exact ⟨0, rfl⟩
  | head hnext _ ih =>
    obtain ⟨steps, hsteps⟩ := ih
    refine ⟨steps + 1, ?_⟩
    rw [Problem.onward, hnext]
    exact hsteps

/-- What every step of a run keeps is kept along the way. -/
theorem keeps {inv : Moment α → Prop} (h : p.Leads m m') (hm : p.Meets m)
    (hstep : ∀ {m m'}, p.Meets m → p.Turn m m' → inv m → inv m') (hinv : inv m) : inv m' := by
  induction h with
  | refl => exact hinv
  | tail hway hnext ih => exact hstep (trans hm hway) (turn_iff.2 hnext) ih

/-- There is one way only, so of two moments that a run comes to one leads to the other. -/
theorem total (h : p.Leads m m') (h' : p.Leads m m'') : p.Leads m' m'' ∨ p.Leads m'' m' := by
  induction h with
  | refl => exact .inl h'
  | @tail between last hway hnext ih =>
    rcases ih with hleads | hleads
    · rcases Relation.ReflTransGen.cases_head hleads with heq | ⟨other, hother, hrest⟩
      · exact .inr (heq ▸ Relation.ReflTransGen.single hnext)
      · obtain rfl : last = other := Option.some.inj (hnext.symm.trans hother)
        exact .inl hrest
    · exact .inr (Relation.ReflTransGen.tail hleads hnext)

/-- Whatever a run comes to, it goes on from there to its end. -/
theorem to_end (h : p.Leads m m') (hend : p.Leads m m'') (hover : p.next m'' = none) : p.Leads m' m'' := by
  rcases h.total hend with hleads | hleads
  · exact hleads
  · rcases Relation.ReflTransGen.cases_head hleads with heq | ⟨other, hother, -⟩
    · exact heq ▸ refl m''
    · simp [hover] at hother

end Leads

/-! ### Every call is answered -/

theorem leads_lookup {force : Key → Step α α} {name : String} {height : Nat} {requester : String}
    (hforce : ∀ {m : Moment α} {key : Key}, m.activity = .force key → m.state = m'.state →
      p.Leads m (m.reply (force key m.state)))
    (hact : m'.activity = .seek name height requester) :
    p.Leads m' (m'.reply (p.lookup force name height requester m'.state)) := by
  rw [lookup_eq_sight]
  cases hsight : p.sight name height with
  | bound key =>
    refine .head (.sighted hact hsight) ?_
    exact @hforce { m' with activity := .force key } key rfl rfl
  | given a => exact .head (.given hact hsight) (.refl _)
  | absent => exact .head (.absent hact hsight) (.refl _)

section Run

variable {room : Nat} {key : Key} {running : List Key}
  (hforce : ∀ {m : Moment α} {found : Key}, m.activity = .force found → m.state.running = running →
    p.Leads m (m.reply (p.force room found m.state)))

include hforce

theorem leads_ask {side : Side} {name : String} {rest : Except Fault α → Recipe α}
    (hact : m.activity = .cook key (.ask side name rest)) (hrunning : m.state.running = running) :
    p.Leads m { m with
      activity := .cook key (rest (p.lookup (p.force room) name (p.height key side) (p.scope key).frame m.state).1)
      state := (p.lookup (p.force room) name (p.height key side) (p.scope key).frame m.state).2 } := by
  have hasked : p.Leads (p.asking m key side name rest) ((p.asking m key side name rest).reply
      (p.lookup (p.force room) name (p.height key side) (p.scope key).frame m.state)) := by
    refine leads_lookup (fun {m₁ found} hact₁ hstate => hforce hact₁ ?_) rfl
    rw [hstate]
    exact hrunning
  exact (Leads.head (.ask hact) hasked).tail (.resume (w := ⟨key, side, name, rest⟩) rfl rfl)

theorem leads_run {r : Recipe α} (hact : m.activity = .cook key r) (hrunning : m.state.running = running) :
    let outcome := p.run (p.force room) (p.scope key) r m.state
    p.Leads m (m.reply (outcome.1, outcome.2.pop key outcome.1)) := by
  induction r generalizing m with
  | done result => exact .head (.done hact) (.refl _)
  | remark text rest ih => exact .head (.remark hact) (ih rfl hrunning)
  | hasPrev name rest ih => exact .head (.hasPrev hact) (ih _ rfl hrunning)
  | prev name rest ih =>
    have hask : m.activity = .cook key (.ask .below name rest) := hact
    exact (leads_ask hforce hask hrunning).trans (ih _ rfl ((lookup_resumes (p.force_resumes room) _ _ _ _).running.trans hrunning))
  | final name rest ih =>
    have hask : m.activity = .cook key (.ask .finished name rest) := hact
    exact (leads_ask hforce hask hrunning).trans (ih _ rfl ((lookup_resumes (p.force_resumes room) _ _ _ _).running.trans hrunning))

end Run

/-- The evaluation of a binding is answered with what the solver gives, as long as it has room for the bindings that are
not running. -/
theorem leads_force {room : Nat} {key : Key} (hact : m.activity = .force key) (hroom : p.free m.state.running ≤ room) :
    p.Leads m (m.reply (p.force room key m.state)) := by
  induction room using Nat.strongRecOn generalizing key m with
  | ind room ih =>
    cases hfound : m.state.found? key with
    | some a =>
      rw [force_of_found? hfound]
      exact .head (.known hact hfound) (.refl _)
    | none =>
      by_cases hcycle : key ∈ m.state.running
      · rw [force_of_mem_running hfound hcycle]
        exact .head (.cycle hact hfound hcycle) (.refl _)
      cases hbinding : p.stored? key with
      | none =>
        rw [force_of_stored?_eq_none hfound hcycle hbinding]
        exact .head (.unbound hact hfound hcycle hbinding) (.refl _)
      | some binding =>
        -- one binding more is running from here on, so the room that is left is enough for the others
        have hless := p.free_cons_lt (Option.isSome_of_eq_some hbinding) hcycle
        obtain ⟨inner, rfl⟩ : ∃ inner, room = inner + 1 := Nat.exists_eq_add_one_of_ne_zero (by omega)
        rw [force_of_stored? hfound hcycle hbinding]
        refine .head (.begin hact hfound hcycle hbinding) ?_
        have hforce : ∀ {m₁ : Moment α} {found : Key}, m₁.activity = .force found →
            m₁.state.running = key :: m.state.running → p.Leads m₁ (m₁.reply (p.force inner found m₁.state)) := by
          intro m₁ found hact₁ hrunning₁
          rw [← hrunning₁] at hless
          exact ih inner (Nat.lt_succ_self inner) hact₁ (by omega)
        exact leads_run hforce rfl rfl

theorem free_le_room (p : Problem α) (running : List Key) : p.free running ≤ p.room :=
  List.length_filter_le _ _

theorem leads_force_room {key : Key} (hact : m.activity = .force key) :
    p.Leads m (m.reply (p.force p.room key m.state)) :=
  leads_force hact (p.free_le_room _)

theorem leads_lookup_room {name : String} {height : Nat} {requester : String}
    (hact : m.activity = .seek name height requester) :
    p.Leads m (m.reply (p.lookup (p.force p.room) name height requester m.state)) :=
  leads_lookup (fun hact₁ _ => leads_force_room hact₁) hact

/-! ### The end of a run -/

theorem leads_collect {names : List String} (hact : m.activity = .collect) (hwaiting : m.waiting = [])
    (htodo : m.todo = names) :
    ∃ last, p.Leads m last ∧ last.activity = .ended ((p.collect names m.state).1.map (m.found.reverse ++ ·)) ∧
      last.state = (p.collect names m.state).2 := by
  induction names generalizing m with
  | nil => exact ⟨_, .head (.finish hact htodo) (.refl _), by simp [collect, Except.map], rfl⟩
  | cons name rest ih =>
    have hfirst : p.Leads m ({ m with wanted := name, todo := rest }.reply (p.lookupFinal name m.state)) :=
      .head (.want hact htodo) (leads_lookup_room rfl)
    rw [collect]
    rcases hlookup : p.lookupFinal name m.state with ⟨result, state⟩
    rw [hlookup] at hfirst
    cases result with
    | error e => exact ⟨_, hfirst.tail (.fail rfl hwaiting), rfl, rfl⟩
    | ok a =>
      obtain ⟨last, hlast, hended, hstate⟩ := ih (m := { m with
        activity := .collect, state := state, wanted := name, found := (name, a) :: m.found, todo := rest }) rfl hwaiting rfl
      rcases hcollect : p.collect rest state with ⟨found, after⟩
      simp only [hcollect] at hended hstate ⊢
      refine ⟨last, (hfirst.tail (.keep rfl hwaiting)).trans hlast, ?_, ?_⟩
      · rw [hended]
        cases found <;> simp [Except.map]
      · rw [hstate]
        cases found <;> rfl

/-- The run that solves a problem is finite, and it ends in what the solver gives. -/
theorem course_ends (p : Problem α) :
    ∃ last result, p.Meets last ∧ last.activity = .ended result ∧ p.solve = (result.map NameMap.ofList, last.state) := by
  obtain ⟨last, hlast, hended, hstate⟩ := leads_collect (p := p) (m := p.start) rfl rfl rfl
  have hplain : (p.collect p.names p.start.state).1.map (p.start.found.reverse ++ ·) = (p.collect p.names {}).1 := by
    change (p.collect p.names {}).1.map ([] ++ ·) = _
    cases (p.collect p.names {}).1 <;> rfl
  refine ⟨last, (p.collect p.names {}).1, hlast, hended.trans (congrArg _ hplain), ?_⟩
  rw [hstate]
  rfl

end Problem

end HostFleet.Overlay
