import HostFleet.Proofs.Overlay.Discipline

/-!
# Overlays merged before they are applied

A `Grouping` is a merge of overlays in any bracketing. Its layers are those of its parts one after another, and each of
them keeps the name of the overlay it was written in, so a chain of groupings is solved step by step as the chain of the
parts is, and its faults name the parts. The name of a merge is never seen.
-/

namespace HostFleet.Overlay

variable {α : Type}

theorem mem_names_iff (o : Overlay α) (name : String) :
    name ∈ o.names ↔ ∃ layer ∈ o.layers, name ∈ layer.bindings.names := by
  rw [names, NameMap.mem_names_ofList]
  simp

theorem pairwise_names (o : Overlay α) : o.names.Pairwise (· < ·) :=
  List.pairwise_map.2 (NameMap.sorted _)

theorem bindWith_merge (o next : Overlay α) (package : String) (binding : Binding α) :
    (o.merge next).bindWith package binding = o.merge (next.bindWith package binding) := rfl

/-! ### Bracketings -/

/-- Overlays merged in some bracketing. -/
inductive Grouping (α : Type) where
  | single (o : Overlay α)
  | merge (lower upper : Grouping α)

namespace Grouping

def parts : Grouping α → List (Overlay α)
  | .single o => [o]
  | .merge lower upper => lower.parts ++ upper.parts

def overlay : Grouping α → Overlay α
  | .single o => o
  | .merge lower upper => lower.overlay.merge upper.overlay

theorem layers_overlay (g : Grouping α) : g.overlay.layers = stack g.parts := by
  induction g with
  | single o => simp [overlay, parts, stack]
  | merge lower upper ihLower ihUpper => rw [overlay, layers_merge, ihLower, ihUpper, parts, stack_append]

theorem stack_map_overlay (chain : List (Grouping α)) : stack (chain.map overlay) = stack (chain.flatMap parts) := by
  induction chain with
  | nil => rfl
  | cons g rest ih => rw [List.map_cons, stack_cons, layers_overlay, ih, List.flatMap_cons, stack_append]

theorem mem_names_overlay (g : Grouping α) (name : String) : name ∈ g.overlay.names ↔ ∃ o ∈ g.parts, name ∈ o.names := by
  simp only [mem_names_iff, layers_overlay, stack, List.mem_flatMap]
  constructor
  · rintro ⟨layer, ⟨o, ho, hlayer⟩, hname⟩
    exact ⟨o, ho, layer, hlayer, hname⟩
  · rintro ⟨o, ho, layer, hlayer, hname⟩
    exact ⟨layer, ⟨o, ho, hlayer⟩, hname⟩

/-- A package that is bound on a merged overlay is bound on the last of its parts. -/
theorem layers_bindWith_overlay (g : Grouping α) (package : String) (binding : Binding α) :
    ∃ init last, g.parts = init ++ [last] ∧
      (g.overlay.bindWith package binding).layers = stack (init ++ [last.bindWith package binding]) := by
  induction g with
  | single o => exact ⟨[], o, rfl, by simp [overlay, stack]⟩
  | merge lower upper _ ihUpper =>
    obtain ⟨init, last, hparts, hlayers⟩ := ihUpper
    refine ⟨lower.parts ++ init, last, by rw [parts, hparts, List.append_assoc], ?_⟩
    rw [overlay, bindWith_merge, layers_merge, layers_overlay, hlayers, ← stack_append, List.append_assoc]

end Grouping

/-! ### Who is named in a fault -/

/-- An overlay as it was written, before any merge. -/
structure Written (o : Overlay α) : Prop where
  lower : o.lower = []
  origin : o.top.origin = o.name

/-- The faults of a recipe are its own giving up and faults it was answered with. -/
def Recipe.Candid (scope : Scope) (r : Recipe α) : Prop :=
  ∀ allowed : Fault → Prop, (∀ reason, allowed (scope.fail reason)) → r.Passes allowed

def Candid (o : Overlay α) : Prop := o.Each fun scope r => r.Candid scope

theorem Recipe.candid_demandPrev {scope : Scope} {next : α → Recipe α} (h : ∀ a, (next a).Candid scope) (package : String) :
    (demandPrev package next).Candid scope :=
  fun allowed hfail => ⟨fun a => h a allowed hfail, fun _ he _ heq => Except.error.inj heq ▸ he⟩

theorem Recipe.candid_demand {scope : Scope} {next : α → Recipe α} (h : ∀ a, (next a).Candid scope) (package : String) :
    (demand package next).Candid scope :=
  fun allowed hfail => ⟨fun a => h a allowed hfail, fun _ he _ heq => Except.error.inj heq ▸ he⟩

/-- The definitions of a chain, as messages name them. -/
def frames (chain : List (Overlay α)) : List String :=
  chain.flatMap fun o => o.names.map fun package => o.name ++ ":" ++ package

/-- A fault names definitions of a chain only. -/
def Fault.Blames (chain : List (Overlay α)) : Fault → Prop
  | .cycle path => ∀ frame ∈ path, frame ∈ frames chain
  | .missing _ requestedBy => requestedBy ∈ frames chain
  | .evaluation overlay package _ => ∃ o ∈ chain, o.name = overlay ∧ package ∈ o.names

theorem stack_eq_of_written {chain : List (Overlay α)} (h : ∀ o ∈ chain, o.Written) : stack chain = chain.map top := by
  induction chain with
  | nil => rfl
  | cons o rest ih =>
    rw [stack_cons, ih fun o' ho' => h o' (List.mem_cons_of_mem _ ho'), layers, (h o List.mem_cons_self).lower]
    rfl

namespace Problem

variable {platform : Platform} {base : NameMap α} {chain : List (Overlay α)}

/-- A definition stands in the overlay that it was written in. -/
theorem origin_scope_of_written (h : ∀ o ∈ chain, o.Written) {key : Key}
    (hkey : ((Problem.mk platform base (stack chain)).binding? key).isSome) :
    ∃ o, chain[key.layer]? = some o ∧ key.name ∈ o.names ∧
      ((Problem.mk platform base (stack chain)).scope key).origin = o.name := by
  obtain ⟨binding, hbinding⟩ := Option.isSome_iff_exists.1 hkey
  obtain ⟨layer, hlayer, hget, -⟩ := (binding?_eq_some_iff _).1 hbinding
  rw [stack_eq_of_written h, List.getElem?_map] at hlayer
  obtain ⟨o, ho, rfl⟩ := Option.map_eq_some_iff.1 hlayer
  refine ⟨o, ho, (o.mem_names_iff key.name).2 ⟨o.top, by simp [Overlay.layers], ?_⟩, ?_⟩
  · exact (NameMap.mem_names_iff _ _).2 (Option.isSome_of_eq_some hget)
  · rw [scope, origin, stack_eq_of_written h, List.getElem?_map, ho]
    exact (h o (List.mem_of_getElem? ho)).origin

theorem frame_scope_mem_frames (h : ∀ o ∈ chain, o.Written) {key : Key}
    (hkey : ((Problem.mk platform base (stack chain)).binding? key).isSome) :
    ((Problem.mk platform base (stack chain)).scope key).frame ∈ frames chain := by
  obtain ⟨o, ho, hname, horigin⟩ := origin_scope_of_written h hkey
  rw [Scope.frame, horigin]
  exact List.mem_flatMap.2 ⟨o, List.mem_of_getElem? ho, List.mem_map_of_mem hname⟩

/-- Solving written overlays, bindings that run are bindings of the platform, and faults name definitions of the chain. -/
theorem keeps_blames (hwritten : ∀ o ∈ chain, o.Written) (hcandid : ∀ o ∈ chain, o.Candid) :
    (Problem.mk platform base (stack chain)).Keeps
      (fun state => ∀ key ∈ state.running, ((Problem.mk platform base (stack chain)).binding? key).isSome)
      (Fault.Blames chain) where
  remark _ hinv := hinv
  push hinv _ _ hkey := List.forall_mem_cons.2 ⟨hkey, hinv⟩
  pop _ hinv _ := fun key hkey => hinv key (List.mem_of_mem_tail hkey)
  missing hkey _ := frame_scope_mem_frames hwritten hkey
  cycle := by
    intro state key hinv hkey frame hframe
    obtain ⟨k, hk, rfl⟩ := List.mem_map.1 hframe
    refine frame_scope_mem_frames hwritten ?_
    simp only [List.mem_cons, List.mem_append, List.mem_reverse, List.not_mem_nil, or_false] at hk
    rcases hk with rfl | hk | rfl
    · exact hinv k hkey
    · exact hinv k ((List.takeWhile_sublist _).mem hk)
    · exact hinv k hkey
  recipe := by
    intro key binding hbinding
    have hkey := Option.isSome_of_eq_some hbinding
    obtain ⟨layer, hlayer, hget, -⟩ := (binding?_eq_some_iff _).1 hbinding
    obtain ⟨o, ho, hmem⟩ := List.mem_flatMap.1 (List.mem_of_getElem? hlayer)
    refine hcandid o ho layer hmem key.name binding hget _ _ fun reason => ?_
    obtain ⟨o', ho', hname, horigin⟩ := origin_scope_of_written hwritten hkey
    exact ⟨o', List.mem_of_getElem? ho', horigin.symm, hname⟩

end Problem

theorem blames_of_apply {chain : List (Overlay α)} (hwritten : ∀ o ∈ chain, o.Written) (hcandid : ∀ o ∈ chain, o.Candid)
    {platform : Platform} {base : NameMap α} {e : Fault} (h : apply chain platform base = .error e) : e.Blames chain :=
  (Problem.solve_ends (Problem.keeps_blames hwritten hcandid) (by simp)).allowed e h

/-- Merging overlays beforehand changes nothing. A chain of groupings is solved as the chain of their parts: the result and
all that the solver knows in the end are the same, the starts of definitions in their order included. Definitions stand in
the overlays they were written in and faults name these. A binding added to a merge is one added to its last part, and a
merge has the names of its parts. -/
theorem grouped_chain_eq_flat (chain : List (Grouping α)) (platform : Platform) (base : NameMap α) :
    ((Problem.mk platform base (stack (chain.map Grouping.overlay))).solve =
        (Problem.mk platform base (stack (chain.flatMap Grouping.parts))).solve ∧
      apply (chain.map Grouping.overlay) platform base = apply (chain.flatMap Grouping.parts) platform base) ∧
    ((∀ o ∈ chain.flatMap Grouping.parts, o.Written) →
      (∀ key, ((Problem.mk platform base (stack (chain.map Grouping.overlay))).binding? key).isSome →
        ∃ o, (chain.flatMap Grouping.parts)[key.layer]? = some o ∧ key.name ∈ o.names ∧
          ((Problem.mk platform base (stack (chain.map Grouping.overlay))).scope key).origin = o.name) ∧
      ((∀ o ∈ chain.flatMap Grouping.parts, o.Candid) →
        ∀ e, apply (chain.map Grouping.overlay) platform base = .error e →
          e.Blames (chain.flatMap Grouping.parts))) ∧
    (∀ (g : Grouping α) (package : String) (binding : Binding α), ∃ init last, g.parts = init ++ [last] ∧
      ∀ below above : List (Overlay α),
        (Problem.mk platform base (stack (below ++ g.overlay.bindWith package binding :: above))).solve =
          (Problem.mk platform base (stack (below ++ init ++ last.bindWith package binding :: above))).solve) ∧
    ∀ g : Grouping α, g.overlay.names.Pairwise (· < ·) ∧ ∀ name, name ∈ g.overlay.names ↔ ∃ o ∈ g.parts, name ∈ o.names := by
  have hstack := Grouping.stack_map_overlay chain
  refine ⟨⟨by rw [hstack], by rw [apply, hstack, apply]⟩, fun hwritten => ⟨?_, fun hcandid e he => ?_⟩,
    fun g package binding => ?_, fun g => ⟨g.overlay.pairwise_names, g.mem_names_overlay⟩⟩
  · rw [hstack]
    exact fun key => Problem.origin_scope_of_written hwritten
  · rw [apply, hstack] at he
    exact blames_of_apply hwritten hcandid he
  · obtain ⟨init, last, hparts, hlayers⟩ := g.layers_bindWith_overlay package binding
    refine ⟨init, last, hparts, fun below above => ?_⟩
    have hchain : stack (below ++ g.overlay.bindWith package binding :: above) =
        stack (below ++ init ++ last.bindWith package binding :: above) := by
      rw [stack_append, stack_cons, hlayers, ← stack_append, ← stack_append]
      simp
    rw [hchain]

/-- Three overlays merged to one: the second recovers from the fault of the first, and the third does not. -/
def release : Grouping Nat :=
  let pinned := ((new "pinned").set "lib" 2).bind "app" fun scope => .demand "lib" fun n =>
    if n < 3 then .fault (scope.fail "lib is too old") else .value n
  let fallback := (new "fallback").bind "tool" fun _ => .final "app" fun
    | .ok n => .value n
    | .error _ => .value 0
  let site := (new "site").bind "zip" fun _ => .demandPrev "tool" fun n => .demand "app" fun m => .value (n + m)
  .merge (.merge (.single pinned) (.single fallback)) (.single site)

theorem written_parts_release : ∀ o ∈ release.parts, o.Written := by
  intro o ho
  simp only [release, Grouping.parts, List.cons_append, List.nil_append, List.mem_cons, List.not_mem_nil, or_false] at ho
  rcases ho with rfl | rfl | rfl <;> exact ⟨rfl, rfl⟩

theorem candid_parts_release : ∀ o ∈ release.parts, o.Candid := by
  have hvalue : ∀ (scope : Scope) (n : Nat), (Recipe.value n).Candid scope := by
    intro scope n allowed hfail e he
    simp at he
  intro o ho
  simp only [release, Grouping.parts, List.cons_append, List.nil_append, List.mem_cons, List.not_mem_nil, or_false] at ho
  rcases ho with rfl | rfl | rfl
  · refine ((each_new _ "pinned").bindWith (fun s => hvalue s 2) "lib").bindWith (fun s => ?_) "app"
    refine Recipe.candid_demand (fun n => ?_) "lib"
    split
    · exact fun allowed hfail e he => Except.error.inj he ▸ hfail _
    · exact hvalue s n
  · refine (each_new _ "fallback").bindWith (fun s allowed hfail => ?_) "tool"
    exact ⟨fun n => hvalue s n allowed hfail, fun _ _ => hvalue s 0 allowed hfail⟩
  · refine (each_new _ "site").bindWith (fun s => ?_) "zip"
    exact Recipe.candid_demandPrev (fun n => Recipe.candid_demand (fun m => hvalue s (n + m)) "app") "tool"

theorem release_eq_flat :
    ((∀ o ∈ release.parts, o.Written) ∧ (∀ o ∈ release.parts, o.Candid) ∧
      apply [release.overlay] ⟨"x86_64-linux"⟩ .empty = .error (.evaluation "pinned" "app" "lib is too old")) ∧
    apply release.parts ⟨"x86_64-linux"⟩ .empty = .error (.evaluation "pinned" "app" "lib is too old") ∧
    (Fault.evaluation "pinned" "app" "lib is too old").Blames release.parts := by
  have hfault : apply [release.overlay] ⟨"x86_64-linux"⟩ .empty =
      .error (.evaluation "pinned" "app" "lib is too old") := by decide +kernel
  have hparts : [release].flatMap Grouping.parts = release.parts := by simp
  obtain ⟨⟨-, hsame⟩, hblames, -⟩ := grouped_chain_eq_flat [release] ⟨"x86_64-linux"⟩ .empty
  rw [hparts] at hsame hblames
  exact ⟨⟨written_parts_release, candid_parts_release, hfault⟩, hsame.symm.trans hfault,
    (hblames written_parts_release).2 candid_parts_release _ hfault⟩

end HostFleet.Overlay
