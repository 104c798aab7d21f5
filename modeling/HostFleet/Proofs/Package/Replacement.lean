import HostFleet.Proofs.Package.ClosedForm
import HostFleet.Proofs.Package.Column

/-!
# Replaced definitions are dead

An override that is another name, or a package of its own, does not look at what stands below it. Above it, an override
that builds on the one below reaches down to it and no further, and the finished set shows it or one above it. So what the
sheets below it and the base say about its package is never looked up, and two declarations that differ only there have
the same solution, or the same fault.
-/

namespace HostFleet

open Overlay

def Sheet.without (package : String) (sheet : Sheet) : Sheet :=
  { sheet with packages := sheet.packages.erase package }

theorem Sheet.override?_without {package name : String} (h : name ≠ package) (sheet : Sheet) (platform : Platform) :
    Sheet.override? (sheet.without package) platform name = sheet.override? platform name := by
  simp only [Sheet.override?, Sheet.without, NameMap.get?_erase, if_neg h]

namespace Declaration

/-- Two declarations differ at most in what they say about a package below a layer. -/
structure AgreesFrom (d d' : Declaration) (package : String) (layer : Nat) : Prop where
  platform : d.platform = d'.platform
  base : ∀ name, name ≠ package → d.base.get? name = d'.base.get? name
  names : d.sheets.map Sheet.name = d'.sheets.map Sheet.name
  entry : ∀ key : Key, (key.name = package → layer ≤ key.layer) → d.override? key = d'.override? key

theorem agreesFrom_without (platform : Platform) (base : NameMap Artifact) (below above : List Sheet) (package : String) :
    AgreesFrom ⟨platform, base, below ++ above⟩
      ⟨platform, base.erase package, below.map (Sheet.without package) ++ above⟩ package below.length where
  platform := rfl
  base name hname := by rw [NameMap.get?_erase, if_neg hname]
  names := by
    rw [List.map_append, List.map_append, List.map_map]
    rfl
  entry key hkey := by
    simp only [Declaration.override?]
    by_cases hlayer : key.layer < below.length
    · have hname : key.name ≠ package := fun heq => by
        have hle := hkey heq
        omega
      rw [List.getElem?_append_left hlayer, List.getElem?_append_left (by rwa [List.length_map]), List.getElem?_map]
      cases below[key.layer]? with
      | none => rfl
      | some sheet => exact (sheet.override?_without hname platform).symm
    · have hle : below.length ≤ key.layer := by omega
      rw [List.getElem?_append_right hle, List.getElem?_append_right (by rwa [List.length_map]), List.length_map]

/-- An entry that is not one of a package below a layer. -/
structure Live (d : Declaration) (package : String) (layer : Nat) (key : Key) : Prop where
  entry : (d.override? key).isSome
  high : key.name = package → layer ≤ key.layer

namespace AgreesFrom

variable {d d' : Declaration} {package : String} {layer : Nat} (h : AgreesFrom d d' package layer)

include h

/-! ### Look-ups

A look-up of the package from above the layer stops at the layer at the latest, where its entry stands. -/

theorem match_look (hentry : (d.override? ⟨layer, package⟩).isSome) {name : String} {height : Nat}
    (hheight : name = package → layer < height) :
    (d.look name height).Match (fun key key' => key = key' ∧ d.Live package layer key) (d'.look name height) := by
  induction height with
  | zero =>
    have hname : name ≠ package := fun heq => Nat.not_lt_zero _ (hheight heq)
    rw [look, look, ← h.base name hname]
    cases d.base.get? name with
    | none => exact .absent
    | some a => exact .given a
  | succ height ih =>
    have hhigh : name = package → layer ≤ height := fun heq => Nat.le_of_lt_succ (hheight heq)
    rw [look, look, ← h.entry ⟨height, name⟩ hhigh]
    by_cases hhere : (d.override? ⟨height, name⟩).isSome
    · rw [if_pos hhere, if_pos hhere]
      exact .bound ⟨rfl, hhere, hhigh⟩
    · rw [if_neg hhere, if_neg hhere]
      refine ih fun heq => ?_
      have hne : layer ≠ height := fun hlayer => hhere (by rwa [heq, ← hlayer])
      have hle := hhigh heq
      omega

/-! ### Solutions -/

theorem correspondence {o : Override} (hentry : d.override? ⟨layer, package⟩ = some o) (hnew : o.builds = false) :
    Correspondence d.problem d'.problem (fun key key' => key = key' ∧ d.Live package layer key) where
  final name := by
    have hsome : (d.override? ⟨layer, package⟩).isSome := Option.isSome_of_eq_some hentry
    have hlayer : layer < d.sheets.length := by
      rw [← isSome_binding?_problem] at hsome
      rw [← length_layers_problem]
      exact d.problem.lt_length_of_isSome_binding? hsome
    have hlength : d'.sheets.length = d.sheets.length := by simpa using congrArg List.length h.names.symm
    rw [sight_problem, sight_problem, length_layers_problem, length_layers_problem, hlength]
    exact h.match_look hsome fun _ => hlayer
  eq_iff := by
    intro key key' other other' hkey hother
    rw [hkey.1, hother.1]
  frame := by
    intro key key' hkey
    obtain ⟨rfl, -⟩ := hkey
    simp only [Scope.frame, Problem.scope, origin_problem_eq, h.names]
  recipe := by
    intro key key' hkey
    obtain ⟨rfl, hlive⟩ := hkey
    obtain ⟨change, hchange⟩ := Option.isSome_iff_exists.1 hlive.entry
    have hsame : d'.override? key = some change := (h.entry key hlive.high).symm.trans hchange
    have hscope : d'.problem.scope key = d.problem.scope key := by
      have hplatform : d'.problem.platform = d.problem.platform := h.platform.symm
      rw [Problem.scope, Problem.scope, origin_problem_eq, origin_problem_eq, h.names, hplatform]
    refine ⟨change.binding, change.binding, by rw [binding?_problem, hchange]; rfl, by rw [binding?_problem, hsame]; rfl,
      by rw [hscope], ?_⟩
    refine (change.asksBelow_recipe (d.problem.scope key)).mono fun name hname => ?_
    obtain ⟨hbuilds, rfl⟩ := hname
    rw [sight_problem, sight_problem]
    refine h.match_look (Option.isSome_of_eq_some hentry) fun heq => ?_
    have hne : layer ≠ key.layer := by
      intro hlayer
      have hkey : key = ⟨layer, package⟩ := by rw [hlayer, ← heq]; rfl
      rw [hkey, hentry] at hchange
      obtain rfl := Option.some.inj hchange
      simp [Override.builds, hbuilds] at hnew
    have hle := hlive.high heq
    omega

theorem apply_eq {o : Override} (hentry : d.override? ⟨layer, package⟩ = some o) (hnew : o.builds = false) :
    apply (d.sheets.map Sheet.overlay) d.platform d.base = apply (d'.sheets.map Sheet.overlay) d'.platform d'.base := by
  rw [d.apply_sheets, d'.apply_sheets]
  exact (h.correspondence hentry hnew).solveAnew_eq

end AgreesFrom

end Declaration

/-- Replaced definitions are dead. Where a sheet has an override of a package that is another name or does not start from
the definition below, it makes no difference what the sheets below and the base say about the package, or whether they
say anything. -/
theorem replaced_definitions_are_dead {platform : Platform} {sheet : Sheet} {package : String} {o : Override}
    (hentry : sheet.override? platform package = some o) (hnew : o.target.isSome ∨ o.inherits = false)
    (base : NameMap Artifact) (below above : List Sheet) :
    apply ((below.map (Sheet.without package) ++ sheet :: above).map Sheet.overlay) platform (base.erase package) =
      apply ((below ++ sheet :: above).map Sheet.overlay) platform base ∧
    ∀ (base' : NameMap Artifact) (below' : List Sheet), base'.erase package = base.erase package →
      below'.map (Sheet.without package) = below.map (Sheet.without package) →
      apply ((below' ++ sheet :: above).map Sheet.overlay) platform base' =
        apply ((below ++ sheet :: above).map Sheet.overlay) platform base := by
  have hbuilds : o.builds = false := by
    rcases hnew with hsome | hinherits
    · obtain ⟨target, htarget⟩ := Option.isSome_iff_exists.1 hsome
      simp [Override.builds, htarget]
    · simp [Override.builds, hinherits]
  have hremoved : ∀ (base : NameMap Artifact) (below : List Sheet),
      apply ((below ++ sheet :: above).map Sheet.overlay) platform base =
        apply ((below.map (Sheet.without package) ++ sheet :: above).map Sheet.overlay) platform (base.erase package) := by
    intro base below
    have hthere : Declaration.override? ⟨platform, base, below ++ sheet :: above⟩ ⟨below.length, package⟩ = some o := by
      rw [Declaration.override?, List.getElem?_append_right (Nat.le_refl _), Nat.sub_self]
      exact hentry
    exact (Declaration.agreesFrom_without platform base below (sheet :: above) package).apply_eq hthere hbuilds
  refine ⟨(hremoved base below).symm, fun base' below' hbase hbelow => ?_⟩
  rw [hremoved base' below', hremoved base below, hbase, hbelow]

/-- Definitions of a package without a version, with a missing input, and with itself as an input. -/
def discarded : List Sheet :=
  [⟨"blank", .ofList [("tool", {})]⟩, ⟨"lacking", .ofList [("tool", { inherits := true, inputs := some ["ghost"] })]⟩,
    ⟨"looping", .ofList [("tool", { version := some "0", inputs := some ["tool"] })]⟩]

def replacing : Sheet := ⟨"replacing", .ofList [("tool", { version := some "1" })]⟩

def patching : Sheet := ⟨"patching", .ofList [("tool", { inherits := true, patches := ["fix.patch"] })]⟩

/-- Another name for what is missing. -/
def dangling : Sheet := ⟨"dangling", .ofList [("app", { target := some "ghost" })]⟩

theorem discarded_definitions_are_dead :
    replacing.override? ⟨"x86_64-linux"⟩ "tool" = some { version := some "1" } ∧
    apply ((discarded ++ [replacing, patching]).map Sheet.overlay) ⟨"x86_64-linux"⟩ {} =
      .ok (.ofList [("tool",
        { pname := "tool", version := "1", platform := ⟨"x86_64-linux"⟩, patches := ["fix.patch"] })]) ∧
    apply ((discarded ++ [replacing, dangling]).map Sheet.overlay) ⟨"x86_64-linux"⟩ {} =
      .error (.missing "ghost" "dangling:app") := by
  have hentry : replacing.override? ⟨"x86_64-linux"⟩ "tool" = some { version := some "1" } := rfl
  have hdead := replaced_definitions_are_dead hentry (.inr rfl) {} discarded
  refine ⟨hentry, ?_, ?_⟩
  · rw [← (hdead [patching]).1]
    decide +kernel
  · rw [← (hdead [dangling]).1]
    decide +kernel

end HostFleet
