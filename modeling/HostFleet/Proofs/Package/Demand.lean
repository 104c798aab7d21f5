import Mathlib.Logic.Relation
import HostFleet.Proofs.Package.Declared

/-!
# When declared overlays have a solution

The overrides of a declaration span a graph: an entry demands the package it is another name for, or the definition below
it and its inputs. Whether the declaration has a solution can be read off the part of this graph that the finished set
reaches: it has one exactly if no demand there is missing, no entry there lacks everything that a package is made of, and
no entry there needs itself.

The solver visits the graph in its own order, with its memo and up to the first fault. A fault is traced back to the
defect that it names along the running entries, each of which needs the next. Conversely an entry that needs another has
no value before the other has one, so all that is reached from a solved set has a value, and nothing needs itself.
-/

namespace HostFleet

open Overlay Relation

/-- The look-ups that an override at a key asks for, each a package and the height below which it is looked up. -/
def Override.demands (o : Override) (key : Key) (top : Nat) : List (String × Nat) :=
  match o.target with
  | some target => [(target, top)]
  | none => (if o.inherits then [(key.name, key.layer)] else []) ++ (o.inputs.getD []).map (·, top)

theorem Override.mem_demands_iff {o : Override} {key : Key} {top : Nat} {package : String} {height : Nat} :
    (package, height) ∈ o.demands key top ↔
      (o.target = some package ∧ height = top) ∨
      (o.target = none ∧ ((o.inherits = true ∧ package = key.name ∧ height = key.layer) ∨
        (package ∈ o.inputs.getD [] ∧ height = top))) := by
  have hinputs : (package, height) ∈ (o.inputs.getD []).map (·, top) ↔ package ∈ o.inputs.getD [] ∧ height = top := by
    rw [List.mem_map]
    constructor
    · rintro ⟨input, hinput, heq⟩
      obtain ⟨rfl, rfl⟩ := Prod.mk.inj heq
      exact ⟨hinput, rfl⟩
    · rintro ⟨hinput, rfl⟩
      exact ⟨package, hinput, rfl⟩
  unfold demands
  cases o.target with
  | some target => simp [eq_comm (a := package)]
  | none =>
    rw [List.mem_append, hinputs]
    cases o.inherits <;> simp

/-- The override is no other name, does not start from the definition below and gives no version. -/
def Override.IsBlank (o : Override) : Prop := o.target = none ∧ o.inherits = false ∧ o.version = none

namespace Declaration

variable (d : Declaration)

/-- The entry at a key looks a package up below a height. -/
def Demands (key : Key) (package : String) (height : Nat) : Prop :=
  ∃ o, d.override? key = some o ∧ (package, height) ∈ o.demands key d.sheets.length

/-- One entry looks a package up and finds the other entry. -/
def Needs (key other : Key) : Prop :=
  ∃ package height, d.Demands key package height ∧ d.look package height = .bound other

/-- An entry is the topmost one of its package, or is needed by way of such an entry. -/
def Reachable (key : Key) : Prop :=
  ∃ package root, d.look package d.sheets.length = .bound root ∧ ReflTransGen d.Needs root key

/-- A reachable entry looks up what is not there. -/
def Incomplete : Prop :=
  ∃ key package height, d.Reachable key ∧ d.Demands key package height ∧ d.look package height = .absent

def Unversioned : Prop := ∃ key o, d.Reachable key ∧ d.override? key = some o ∧ o.IsBlank

/-- A reachable entry needs itself. -/
def Cyclic : Prop := ∃ key, d.Reachable key ∧ TransGen d.Needs key key

/-- The defect that a fault of each kind reports. -/
def Defect : Fault → Prop
  | .cycle _ => d.Cyclic
  | .missing _ _ => d.Incomplete
  | .evaluation _ _ _ => d.Unversioned

variable {d}

theorem isSome_override?_of_look {package : String} {height : Nat} {key : Key} (h : d.look package height = .bound key) :
    (d.override? key).isSome := by
  rw [← sight_problem] at h
  rw [← isSome_binding?_problem]
  exact (d.problem.sight_eq_bound h).2.2

theorem Reachable.isSome_override? {key : Key} (h : d.Reachable key) : (d.override? key).isSome := by
  obtain ⟨package, root, hroot, hpath⟩ := h
  rcases ReflTransGen.cases_tail hpath with rfl | ⟨last, -, name, height, -, hlook⟩
  · exact isSome_override?_of_look hroot
  · exact isSome_override?_of_look hlook

theorem Reachable.of_needs {key other : Key} (h : d.Reachable key) (hneeds : d.Needs key other) : d.Reachable other := by
  obtain ⟨package, root, hroot, hpath⟩ := h
  exact ⟨package, root, hroot, hpath.tail hneeds⟩

/-! ### Faults come from defects -/

/-- A fault of the recipe at a key is that of one of its demands, or the entry is blank. -/
theorem demand_of_result_eq_error {key : Key} {o : Override} (hentry : d.override? key = some o)
    {evaluate : Key → Except Fault Artifact} {e : Fault}
    (h : (o.recipe (d.problem.scope key)).result (d.problem.answers evaluate key) = .error e) :
    (o.IsBlank ∧ ∃ reason, e = (d.problem.scope key).fail reason) ∨
    ∃ package height, d.Demands key package height ∧
      d.problem.find evaluate package height (d.problem.scope key).frame = .error e := by
  have hfinal : ∀ {package}, (d.problem.answers evaluate key).final package = .error e →
      d.problem.find evaluate package d.sheets.length (d.problem.scope key).frame = .error e := by
    intro package hanswer
    rwa [← length_layers_problem]
  rcases Override.result_recipe_eq_error h with ⟨target, htarget, hanswer⟩ | ⟨htarget, hrest⟩
  · exact .inr ⟨target, _, ⟨o, hentry, Override.mem_demands_iff.2 (.inl ⟨htarget, rfl⟩)⟩, hfinal hanswer⟩
  rcases hrest with ⟨hinherits, hanswer⟩ | ⟨input, hinput, hanswer⟩ | ⟨hinherits, hversion, hreason⟩
  · exact .inr ⟨key.name, key.layer,
      ⟨o, hentry, Override.mem_demands_iff.2 (.inr ⟨htarget, .inl ⟨hinherits, rfl, rfl⟩⟩)⟩, hanswer⟩
  · exact .inr ⟨input, _,
      ⟨o, hentry, Override.mem_demands_iff.2 (.inr ⟨htarget, .inr ⟨hinput, rfl⟩⟩)⟩, hfinal hanswer⟩
  · exact .inl ⟨⟨htarget, hinherits, hversion⟩, hreason⟩

/-- A fault met at an entry reports a defect, if all running entries are on the way to it. -/
theorem defect_of_forceAnew {running : List Key} {key : Key} {e : Fault} (hreach : d.Reachable key)
    (hrunning : ∀ k ∈ running, TransGen d.Needs k key) (h : d.problem.forceAnew running key = .error e) : d.Defect e := by
  fun_induction Problem.forceAnew d.problem running key generalizing e with
  | case1 running key hcycle =>
    obtain rfl := Except.error.inj h
    exact ⟨key, hreach, hrunning key hcycle⟩
  | case2 running key hcycle hbinding =>
    obtain ⟨o, hentry⟩ := Option.isSome_iff_exists.1 hreach.isSome_override?
    simp [d.stored?_problem hentry] at hbinding
  | case3 running key hcycle binding hbinding hless ih =>
    obtain ⟨o, hentry⟩ := Option.isSome_iff_exists.1 hreach.isSome_override?
    obtain rfl : o.binding = binding := Option.some.inj ((d.stored?_problem hentry).symm.trans hbinding)
    rcases demand_of_result_eq_error hentry h with ⟨hblank, reason, rfl⟩ | ⟨package, height, hdemand, hfind⟩
    · exact ⟨key, o, hreach, hentry, hblank⟩
    rw [Problem.find, sight_problem] at hfind
    cases hlook : d.look package height with
    | given a => simp [hlook] at hfind
    | absent =>
      obtain rfl : .missing package (d.problem.scope key).frame = e := by simpa [hlook] using hfind
      exact ⟨key, package, height, hreach, hdemand, hlook⟩
    | bound other =>
      have hneeds : d.Needs key other := ⟨package, height, hdemand, hlook⟩
      refine ih other (hreach.of_needs hneeds) (fun k hk => ?_) (by simpa [hlook] using hfind)
      rcases List.mem_cons.1 hk with rfl | hk
      · exact .single hneeds
      · exact (hrunning k hk).tail hneeds

theorem defect_of_solveAnew {e : Fault} (h : d.problem.solveAnew = .error e) : d.Defect e := by
  obtain ⟨package, key, hsight, hforce⟩ := Problem.exists_forceAnew_of_solveAnew_eq_error h
  rw [sight_problem, length_layers_problem] at hsight
  exact defect_of_forceAnew ⟨package, key, hsight, .refl⟩ (by simp) hforce

/-! ### Solved declarations have no defect -/

/-- An entry with a value is not blank, and each of its demands was found at a smaller depth. -/
theorem seen?_of_demands {depth : Nat} {key : Key} {o : Override} {a : Artifact} (hentry : d.override? key = some o)
    (h : d.problem.value? depth key = some a) :
    ∃ less < depth, ¬ o.IsBlank ∧ ∀ package height, d.Demands key package height →
      (d.problem.seen? (d.problem.value? less) package height).isSome := by
  obtain ⟨less, binding, rfl, hbinding, hyield⟩ := d.problem.value?_eq_some h
  obtain rfl : o.binding = binding := Option.some.inj ((d.stored?_problem hentry).symm.trans hbinding)
  refine ⟨less, Nat.lt_succ_self less, ?_⟩
  have hfinal : ∀ package, (d.problem.knowledge (d.problem.value? less) key).final package =
      d.problem.seen? (d.problem.value? less) package d.sheets.length := by
    intro package
    rw [← length_layers_problem]
    rfl
  have hdemands : ∀ {package height}, d.Demands key package height → (package, height) ∈ o.demands key d.sheets.length := by
    rintro package height ⟨o', hentry', hmem⟩
    rwa [Option.some.inj (hentry.symm.trans hentry')]
  rcases Override.yield?_recipe_cases hyield with ⟨target, htarget, hfound⟩ | ⟨htarget, hinputs, hmade⟩
  · refine ⟨fun hblank => by simp [hblank.1] at htarget, fun package height hdemand => ?_⟩
    rcases Override.mem_demands_iff.1 (hdemands hdemand) with ⟨hpackage, rfl⟩ | ⟨hnone, -⟩
    · obtain rfl := Option.some.inj (htarget.symm.trans hpackage)
      rw [← hfinal, hfound]
      rfl
    · simp [htarget] at hnone
  · refine ⟨fun hblank => ?_, fun package height hdemand => ?_⟩
    · rcases hmade with ⟨hinherits, -⟩ | ⟨-, version, hversion, -⟩
      · simp [hblank.2.1] at hinherits
      · simp [hblank.2.2] at hversion
    · rcases Override.mem_demands_iff.1 (hdemands hdemand) with ⟨hsome, -⟩ | ⟨-, ⟨hinherits, rfl, rfl⟩ | ⟨hinput, rfl⟩⟩
      · simp [htarget] at hsome
      · rcases hmade with ⟨-, b, hfound, -⟩ | ⟨hnew, -⟩
        · exact Option.isSome_of_eq_some hfound
        · simp [hinherits] at hnew
      · rw [← hfinal]
        exact hinputs package hinput

theorem Needs.awaits {key other : Key} (h : d.Needs key other) : d.problem.Awaits key other := by
  obtain ⟨package, height, hdemand, hlook⟩ := h
  intro depth hvalue
  obtain ⟨a, ha⟩ := Option.isSome_iff_exists.1 hvalue
  obtain ⟨o, hentry, -⟩ := id hdemand
  obtain ⟨less, hless, -, hseen⟩ := seen?_of_demands hentry ha
  have hother := hseen package height hdemand
  rw [Problem.seen?, sight_problem, hlook] at hother
  exact ⟨less, hless, hother⟩

theorem awaits_of_transGen {key other : Key} (h : TransGen d.Needs key other) : d.problem.Awaits key other := by
  induction h with
  | single hneeds => exact hneeds.awaits
  | tail _ hneeds ih => exact ih.trans hneeds.awaits

/-- All that a solved declaration reaches has a value. -/
theorem Reachable.exists_value? {solution : NameMap Artifact} (hsolved : d.problem.solveAnew = .ok solution) {key : Key}
    (h : d.Reachable key) : ∃ depth a, d.problem.value? depth key = some a := by
  obtain ⟨package, root, hroot, hpath⟩ := h
  rw [← sight_problem, ← length_layers_problem] at hroot
  have hvalue : (d.problem.value? d.problem.room root).isSome := by
    have hget := Problem.isSome_get?_of_sight_eq_bound hsolved hroot
    rwa [Problem.get?_of_solveAnew d.propagates_problem hsolved, Problem.seen?, hroot] at hget
  obtain ⟨a, ha⟩ := Option.isSome_iff_exists.1 hvalue
  rcases (reflTransGen_iff_eq_or_transGen).1 hpath with rfl | hneeds
  · exact ⟨_, a, ha⟩
  · obtain ⟨less, -, hsome⟩ := awaits_of_transGen hneeds _ hvalue
    exact ⟨less, Option.isSome_iff_exists.1 hsome⟩

theorem not_defect_of_solveAnew {solution : NameMap Artifact} (hsolved : d.problem.solveAnew = .ok solution) :
    ¬ d.Incomplete ∧ ¬ d.Unversioned ∧ ¬ d.Cyclic := by
  refine ⟨?_, ?_, ?_⟩
  · rintro ⟨key, package, height, hreach, hdemand, hlook⟩
    obtain ⟨depth, a, ha⟩ := hreach.exists_value? hsolved
    obtain ⟨o, hentry, -⟩ := id hdemand
    obtain ⟨less, -, -, hseen⟩ := seen?_of_demands hentry ha
    have hfound := hseen package height hdemand
    rw [Problem.seen?, sight_problem, hlook] at hfound
    simp at hfound
  · rintro ⟨key, o, hreach, hentry, hblank⟩
    obtain ⟨depth, a, ha⟩ := hreach.exists_value? hsolved
    obtain ⟨less, -, hnot, -⟩ := seen?_of_demands hentry ha
    exact hnot hblank
  · rintro ⟨key, hreach, hcycle⟩
    obtain ⟨depth, a, ha⟩ := hreach.exists_value? hsolved
    rw [(awaits_of_transGen hcycle).value?_eq_none depth] at ha
    simp at ha

end Declaration

/-- Declared overlays have a solution exactly if nothing is missing, blank or cyclic in what the finished set reaches, and
a fault says which of the three it was. -/
theorem declared_apply_eq_ok_iff (d : Declaration) :
    ((∃ solution, apply (d.sheets.map Sheet.overlay) d.platform d.base = .ok solution) ↔
      ¬ d.Incomplete ∧ ¬ d.Unversioned ∧ ¬ d.Cyclic) ∧
    ∀ fault, apply (d.sheets.map Sheet.overlay) d.platform d.base = .error fault →
      match fault with
      | .cycle _ => d.Cyclic
      | .missing _ _ => d.Incomplete
      | .evaluation _ _ _ => d.Unversioned := by
  have hdefect : ∀ fault, d.problem.solveAnew = .error fault → d.Defect fault := fun _ => Declaration.defect_of_solveAnew
  rw [d.apply_sheets]
  refine ⟨⟨?_, ?_⟩, fun fault hfault => ?_⟩
  · rintro ⟨solution, hsolved⟩
    exact Declaration.not_defect_of_solveAnew hsolved
  · rintro ⟨hcomplete, hversioned, hacyclic⟩
    cases hresult : d.problem.solveAnew with
    | ok solution => exact ⟨solution, rfl⟩
    | error fault =>
      have hfault := hdefect fault hresult
      cases fault with
      | cycle path => exact absurd hfault hacyclic
      | missing package requestedBy => exact absurd hfault hcomplete
      | evaluation overlay package reason => exact absurd hfault hversioned
  · have hkind := hdefect fault hfault
    cases fault <;> exact hkind

/-- Two overlays in which a package of each has one of the other as an input. -/
def entangled : Declaration where
  platform := ⟨"x86_64-linux"⟩
  base := .ofList [("hello", { pname := "hello", version := "1.0", platform := ⟨"x86_64-linux"⟩ })]
  sheets :=
    [{ name := "a", packages := .ofList [("hello", { inherits := true, inputs := some ["tool"] })] },
      { name := "b", packages := .ofList [("tool", { version := some "1", inputs := some ["hello"] })] }]

theorem entangled_cyclic :
    apply (entangled.sheets.map Sheet.overlay) entangled.platform entangled.base =
      .error (.cycle ["a:hello", "b:tool", "a:hello"]) ∧ entangled.Cyclic := by
  have hfault : apply (entangled.sheets.map Sheet.overlay) entangled.platform entangled.base =
      .error (.cycle ["a:hello", "b:tool", "a:hello"]) := by decide +kernel
  exact ⟨hfault, (declared_apply_eq_ok_iff entangled).2 _ hfault⟩

end HostFleet
