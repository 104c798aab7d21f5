import HostFleet.Package.Override
import HostFleet.Proofs.Overlay.Memo

/-!
# Overlays written as data

A `Declaration` is a list of overlays written as overrides, with the base and the platform they are solved for. What the
solver sees of it is read off the overrides here: which override stands at a key, what a look-up finds, and what the recipe
of an override does with its answers. The modules on declared packages work with these and never open a recipe.
-/

namespace HostFleet

open Overlay

/-- An overlay written as data. -/
structure Sheet where
  name : String
  packages : NameMap Override

def Sheet.overlay (sheet : Sheet) : Overlay Artifact := Override.overlay sheet.name sheet.packages

/-- The override of a package, if it applies on a platform. -/
def Sheet.override? (sheet : Sheet) (platform : Platform) (package : String) : Option Override :=
  (sheet.packages.get? package).filter fun o => o.appliesOn platform

/-- Sheets over a base, on a platform. -/
structure Declaration where
  platform : Platform
  base : NameMap Artifact
  sheets : List Sheet

namespace Override

def binding (o : Override) : Binding Artifact := { recipe := o.recipe, accepts := o.appliesOn }

theorem foldl_bindIf (entries : List (String × Override)) (overlay : Overlay Artifact) :
    entries.foldl (fun overlay e => overlay.bindIf e.1 e.2.appliesOn e.2.recipe) overlay =
      { overlay with top := { overlay.top with
          bindings := (entries.map fun e => (e.1, e.2.binding)).foldl (fun m e => m.insert e.1 e.2) overlay.top.bindings } } := by
  induction entries generalizing overlay with
  | nil => rfl
  | cons e rest ih => exact ih _

theorem overlay_eq (name : String) (packages : NameMap Override) :
    overlay name packages = ⟨name, [], ⟨name, packages.map binding⟩⟩ := by
  have hbindings : NameMap.override .empty (packages.map binding) = packages.map binding :=
    NameMap.ext_get? fun package => by simp [NameMap.get?_override]
  rw [overlay, foldl_bindIf, ← hbindings]
  rfl

/-! ### What a recipe does with its answers -/

theorem propagates_demandAll {scope : Scope} {next : Recipe Artifact} (h : next.Propagates scope) (packages : List String) :
    (Recipe.demandAll packages next).Propagates scope := by
  induction packages with
  | nil => exact h
  | cons package rest ih => exact Recipe.propagates_demand (fun _ => ih) package

theorem propagates_recipe (o : Override) (scope : Scope) : (o.recipe scope).Propagates scope := by
  have hinputs : ∀ a, (o.withInputs a).Propagates scope :=
    fun a => propagates_demandAll (Recipe.propagates_value scope a) _
  unfold recipe
  split
  · exact Recipe.propagates_demand (Recipe.propagates_value scope) _
  · split
    · exact Recipe.propagates_demandPrev (fun a => hinputs _) _
    · split
      · exact ⟨"no version given", rfl⟩
      · exact hinputs _

theorem yield?_demandAll {answers : Answers (Option Artifact)} {packages : List String} {next : Recipe Artifact} {a : Artifact}
    (h : (Recipe.demandAll packages next).yield? answers = some a) :
    (∀ package ∈ packages, (answers.final package).isSome) ∧ next.yield? answers = some a := by
  induction packages with
  | nil => exact ⟨by simp, h⟩
  | cons package rest ih =>
    obtain ⟨b, hfound, hvalue⟩ := Recipe.yield?_final_eq_some_iff.1 h
    obtain ⟨hrest, hnext⟩ := ih hvalue
    refine ⟨fun other hother => ?_, hnext⟩
    rcases List.mem_cons.1 hother with rfl | hother
    · exact Option.isSome_of_eq_some hfound
    · exact hrest other hother

/-- What the recipe of an override found, and what it made of it. -/
theorem yield?_recipe_cases {o : Override} {scope : Scope} {answers : Answers (Option Artifact)} {a : Artifact}
    (h : (o.recipe scope).yield? answers = some a) :
    (∃ target, o.target = some target ∧ answers.final target = some a) ∨
    (o.target = none ∧ (∀ input ∈ o.inputs.getD [], (answers.final input).isSome) ∧
      ((o.inherits = true ∧ ∃ b, answers.prev scope.package = some b ∧ a = o.change b) ∨
       (o.inherits = false ∧ ∃ version, o.version = some version ∧ a = o.create scope.package version scope.platform))) := by
  unfold recipe at h
  split at h
  · rename_i target htarget
    obtain ⟨b, hfound, hvalue⟩ := Recipe.yield?_final_eq_some_iff.1 h
    exact .inl ⟨target, htarget, hfound.trans hvalue⟩
  · rename_i htarget
    refine .inr ⟨htarget, ?_⟩
    split at h
    · rename_i hinherits
      obtain ⟨b, hfound, hnext⟩ := Recipe.yield?_prev_eq_some_iff.1 h
      obtain ⟨hinputs, hvalue⟩ := yield?_demandAll hnext
      exact ⟨hinputs, .inl ⟨hinherits, b, hfound, (Option.some.inj hvalue).symm⟩⟩
    · rename_i hinherits
      split at h
      · simp [Recipe.fault, Recipe.yield?, Except.toOption] at h
      · rename_i version hversion
        obtain ⟨hinputs, hvalue⟩ := yield?_demandAll h
        exact ⟨hinputs, .inr ⟨by simpa using hinherits, version, hversion, (Option.some.inj hvalue).symm⟩⟩

theorem result_demandAll_eq_error {answers : Answers (Except Fault Artifact)} {packages : List String} {a : Artifact} {e : Fault}
    (h : (Recipe.demandAll packages (.value a)).result answers = .error e) :
    ∃ package ∈ packages, answers.final package = .error e := by
  induction packages with
  | nil => simp [Recipe.demandAll, Recipe.value, Recipe.result] at h
  | cons package rest ih =>
    rw [Recipe.demandAll, Recipe.demand, Recipe.result] at h
    cases hfound : answers.final package with
    | error e' =>
      obtain rfl : e' = e := by simpa [hfound, Recipe.orFault, Recipe.fault, Recipe.result] using h
      exact ⟨package, by simp, hfound⟩
    | ok b =>
      rw [hfound] at h
      obtain ⟨other, hmem, hother⟩ := ih h
      exact ⟨other, List.mem_cons_of_mem _ hmem, hother⟩

/-- Where a fault of the recipe of an override comes from. -/
theorem result_recipe_eq_error {o : Override} {scope : Scope} {answers : Answers (Except Fault Artifact)} {e : Fault}
    (h : (o.recipe scope).result answers = .error e) :
    (∃ target, o.target = some target ∧ answers.final target = .error e) ∨
    (o.target = none ∧
      ((o.inherits = true ∧ answers.prev scope.package = .error e) ∨
       (∃ input ∈ o.inputs.getD [], answers.final input = .error e) ∨
       (o.inherits = false ∧ o.version = none ∧ ∃ reason, e = scope.fail reason))) := by
  unfold recipe at h
  split at h
  · rename_i target htarget
    refine .inl ⟨target, htarget, ?_⟩
    rw [Recipe.demand, Recipe.result] at h
    cases hfound : answers.final target with
    | error e' => simpa [hfound, Recipe.orFault, Recipe.fault, Recipe.result] using h
    | ok b => simp [hfound, Recipe.orFault, Recipe.value, Recipe.result] at h
  · rename_i htarget
    refine .inr ⟨htarget, ?_⟩
    split at h
    · rename_i hinherits
      rw [Recipe.demandPrev, Recipe.result] at h
      cases hfound : answers.prev scope.package with
      | error e' =>
        rw [hfound] at h
        exact .inl ⟨hinherits, h⟩
      | ok b =>
        rw [hfound] at h
        exact .inr (.inl (result_demandAll_eq_error h))
    · rename_i hinherits
      split at h
      · rename_i hversion
        exact .inr (.inr ⟨by simpa using hinherits, hversion, _, (Except.error.inj h).symm⟩)
      · exact .inr (.inl (result_demandAll_eq_error h))

end Override

theorem Sheet.each_overlay {good : Scope → Recipe Artifact → Prop} (h : ∀ (o : Override) scope, good scope (o.recipe scope))
    (sheet : Sheet) : sheet.overlay.Each good := by
  rw [overlay, Override.overlay_eq]
  intro layer hlayer name binding hget scope
  obtain rfl : layer = ⟨sheet.name, sheet.packages.map Override.binding⟩ := by simpa [layers] using hlayer
  obtain ⟨o, -, rfl⟩ : ∃ o, sheet.packages.get? name = some o ∧ o.binding = binding := by
    simpa [NameMap.map, NameMap.get?_mapWithName] using hget
  exact h o scope

theorem Sheet.propagates_overlay (sheet : Sheet) : sheet.overlay.Propagates :=
  sheet.each_overlay Override.propagates_recipe

namespace Declaration

variable (d : Declaration)

def chain : List (Overlay Artifact) := d.sheets.map Sheet.overlay

def problem : Problem Artifact := ⟨d.platform, d.base, stack d.chain⟩

/-- The override that stands at a key, if it applies on the platform. -/
def override? (key : Key) : Option Override :=
  match d.sheets[key.layer]? with
  | some sheet => sheet.override? d.platform key.name
  | none => none

/-- The topmost entry of a package below a height, else its value in the base, else nothing. -/
def look (package : String) : (height : Nat) → Sight Artifact
  | 0 =>
    match d.base.get? package with
    | some a => .given a
    | none => .absent
  | below + 1 => if (d.override? ⟨below, package⟩).isSome then .bound ⟨below, package⟩ else look package below

theorem layers_problem :
    d.problem.layers = d.sheets.map fun sheet => ⟨sheet.name, sheet.packages.map Override.binding⟩ := by
  rw [problem, chain, stack, List.flatMap_map, List.map_eq_flatMap]
  simp only [Sheet.overlay, Override.overlay_eq, layers, List.nil_append]

theorem length_layers_problem : d.problem.layers.length = d.sheets.length := by
  rw [layers_problem, List.length_map]

theorem binding?_problem (key : Key) : d.problem.binding? key = (d.override? key).map Override.binding := by
  simp only [Problem.binding?, Problem.stored?, layers_problem, override?, Sheet.override?, List.getElem?_map]
  cases d.sheets[key.layer]? with
  | none => rfl
  | some sheet =>
    simp only [Option.map_some, Option.bind_eq_bind, Option.bind_some, NameMap.map, NameMap.get?_mapWithName]
    cases sheet.packages.get? key.name with
    | none => rfl
    | some o => by_cases happlies : o.appliesOn d.platform <;> simp [happlies, Override.binding, problem, Option.filter]

theorem isSome_binding?_problem (key : Key) : (d.problem.binding? key).isSome = (d.override? key).isSome := by
  rw [binding?_problem, Option.isSome_map]

theorem stored?_problem {key : Key} {o : Override} (h : d.override? key = some o) :
    d.problem.stored? key = some o.binding :=
  d.problem.stored?_of_binding? (by rw [binding?_problem, h]; rfl)

theorem sight_problem (package : String) (height : Nat) : d.problem.sight package height = d.look package height := by
  induction height with
  | zero =>
    rw [Problem.sight_zero, look, problem]
    cases d.base.get? package <;> rfl
  | succ below ih => rw [Problem.sight_succ, look, isSome_binding?_problem, ih]

theorem propagates_chain : ∀ o ∈ d.chain, o.Propagates := by
  intro o ho
  obtain ⟨sheet, -, rfl⟩ := List.mem_map.1 ho
  exact sheet.propagates_overlay

theorem propagates_problem : d.problem.Propagates := Problem.propagates_stack d.propagates_chain d.platform d.base

theorem apply_sheets : apply (d.sheets.map Sheet.overlay) d.platform d.base = d.problem.solveAnew :=
  Problem.solve_eq_solveAnew d.propagates_problem

end Declaration

end HostFleet
