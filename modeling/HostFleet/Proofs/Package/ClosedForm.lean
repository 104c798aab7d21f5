import Mathlib.Data.List.DropRight
import HostFleet.Proofs.List
import HostFleet.Proofs.Package.Declared

/-!
# Declared packages in closed form

What a declared package is in the solved set can be said without the solver. The topmost override that does not build on
the one below it, or the base if there is none, gives the artifact to start from, and the overrides above it change that
artifact one after another. Each field has its own rule for what a row of changes leaves: the last version, all patches,
the last value of each attribute, the last list of inputs.
-/

namespace HostFleet

open Overlay

namespace Override

/-- The override changes the definition below it. -/
def builds (o : Override) : Bool := o.target.isNone && o.inherits

/-- The overrides of a row above the topmost one that starts anew. -/
def changes (row : List Override) : List Override := row.rtakeWhile builds

theorem changes_concat_of_builds {row : List Override} {o : Override} (ho : o.builds = true) :
    changes (row ++ [o]) = changes row ++ [o] :=
  List.rtakeWhile_concat_pos _ _ _ ho

theorem changes_concat_of_not_builds {row : List Override} {o : Override} (ho : ¬ o.builds = true) :
    changes (row ++ [o]) = [] :=
  List.rtakeWhile_concat_neg _ _ _ ho

/-! ### A row of changes -/

def changeAll (row : List Override) (a : Artifact) : Artifact := row.foldl (fun a o => o.change a) a

theorem changeAll_concat (row : List Override) (o : Override) (a : Artifact) :
    changeAll (row ++ [o]) a = o.change (changeAll row a) := by
  simp [changeAll]

/-- A field that no change touches stays as it was. -/
theorem changeAll_keeps {β : Type} {field : Artifact → β} (hfield : ∀ (o : Override) a, field (o.change a) = field a)
    (row : List Override) (a : Artifact) : field (changeAll row a) = field a := by
  induction row generalizing a with
  | nil => rfl
  | cons o rest ih => exact (ih (o.change a)).trans (hfield o a)

/-- A field that a change replaces if it gives a value has the last value given. -/
theorem changeAll_replaces {β : Type} {field : Artifact → β} {given : Override → Option β}
    (hfield : ∀ (o : Override) a, field (o.change a) = (given o).getD (field a)) (row : List Override) (a : Artifact) :
    field (changeAll row a) = (row.filterMap given).getLast?.getD (field a) := by
  induction row generalizing a with
  | nil => rfl
  | cons o rest ih =>
    rw [List.getLast?_filterMap_cons, Option.getD_or, ← hfield]
    exact ih (o.change a)

/-- An attribute has the last value given for it. -/
theorem get?_attrs_changeAll (row : List Override) (a : Artifact) (attr : String) :
    (changeAll row a).attrs.get? attr = (row.filterMap (·.attrs.get? attr)).getLast?.or (a.attrs.get? attr) := by
  induction row generalizing a with
  | nil => rfl
  | cons o rest ih =>
    rw [List.getLast?_filterMap_cons, Option.or_assoc, ← NameMap.get?_override]
    exact ih (o.change a)

theorem patches_changeAll (row : List Override) (a : Artifact) :
    (changeAll row a).patches = a.patches ++ row.flatMap patches := by
  induction row generalizing a with
  | nil => simp [changeAll]
  | cons o rest ih =>
    have hrest : (changeAll (o :: rest) a).patches = a.patches ++ o.patches ++ rest.flatMap patches := ih (o.change a)
    rw [hrest, List.flatMap_cons, List.append_assoc]

end Override

namespace Declaration

variable (d : Declaration)

/-- The overrides of a package that apply on the platform, from the bottom up. -/
def entries (package : String) : List Override :=
  d.sheets.filterMap fun sheet => sheet.override? d.platform package

/-- What the changes of a package start from, where a row of overrides applies and `solution` is the solved set: the
topmost override that does not build on the one below it, else the base. -/
def start? (solution : NameMap Artifact) (package : String) (row : List Override) : Option Artifact :=
  match (row.rdropWhile Override.builds).getLast? with
  | none => d.base.get? package
  | some o =>
    match o.target with
    | some target => solution.get? target
    | none => o.version.map fun version =>
      { pname := package, version, platform := d.platform, patches := o.patches, inputs := o.inputs.getD [],
        attrs := o.attrs }

variable {d}

theorem start?_concat_of_builds {solution : NameMap Artifact} {package : String} {row : List Override} {o : Override}
    (ho : o.builds = true) : d.start? solution package (row ++ [o]) = d.start? solution package row := by
  rw [start?, List.rdropWhile_concat_pos _ _ _ ho, start?]

theorem start?_concat_of_not_builds {solution : NameMap Artifact} {package : String} {row : List Override} {o : Override}
    (ho : ¬ o.builds = true) :
    d.start? solution package (row ++ [o]) =
      match o.target with
      | some target => solution.get? target
      | none => o.version.map fun version => o.create package version d.platform := by
  rw [start?, List.rdropWhile_concat_neg _ _ _ ho, List.getLast?_concat]
  rfl

/-- The overrides of a package in the sheets below a height. -/
def entriesBelow (d : Declaration) (package : String) (height : Nat) : List Override :=
  (d.sheets.take height).filterMap fun sheet => sheet.override? d.platform package

theorem entriesBelow_succ (package : String) (height : Nat) :
    d.entriesBelow package (height + 1) = d.entriesBelow package height ++ (d.override? ⟨height, package⟩).toList := by
  rw [entriesBelow, List.take_add_one, List.filterMap_append, entriesBelow, override?]
  cases d.sheets[height]? with
  | none => rfl
  | some sheet => cases hentry : sheet.override? d.platform package <;> simp [hentry]

theorem entriesBelow_length (package : String) : d.entriesBelow package d.sheets.length = d.entries package := by
  rw [entriesBelow, List.take_length, entries]

theorem look_of_entriesBelow_eq_nil {package : String} {height : Nat} (h : d.entriesBelow package height = []) :
    d.look package height = d.look package 0 := by
  induction height with
  | zero => rfl
  | succ height ih =>
    rw [entriesBelow_succ, List.append_eq_nil_iff, Option.toList_eq_nil_iff] at h
    rw [← ih h.1, look, h.2, Option.isSome_none, if_neg Bool.false_ne_true]

theorem exists_look_of_entriesBelow_ne_nil {package : String} {height : Nat} (h : d.entriesBelow package height ≠ []) :
    ∃ key, d.look package height = .bound key := by
  induction height with
  | zero => simp [entriesBelow] at h
  | succ height ih =>
    rw [look]
    cases hentry : d.override? ⟨height, package⟩ with
    | some o => exact ⟨_, rfl⟩
    | none =>
      rw [entriesBelow_succ, hentry, Option.toList_none, List.append_nil] at h
      exact ih h

/-- What a look-up below a height finds is what the overrides below that height make. -/
theorem exists_start?_of_seen? {solution : NameMap Artifact} (hsolved : d.problem.solveAnew = .ok solution) {depth : Nat}
    {package : String} {height : Nat} {a : Artifact}
    (h : d.problem.seen? (d.problem.value? depth) package height = some a) :
    ∃ start, d.start? solution package (d.entriesBelow package height) = some start ∧
      a = Override.changeAll (Override.changes (d.entriesBelow package height)) start := by
  rw [Problem.seen?, sight_problem] at h
  induction height generalizing depth a with
  | zero =>
    rw [look] at h
    cases hbase : d.base.get? package with
    | none => simp [hbase] at h
    | some b =>
      obtain rfl : b = a := by simpa [hbase] using h
      exact ⟨b, hbase, rfl⟩
  | succ height ih =>
    rw [look] at h
    rw [entriesBelow_succ]
    cases hentry : d.override? ⟨height, package⟩ with
    | none =>
      rw [Option.toList_none, List.append_nil]
      exact ih (by simpa [hentry] using h)
    | some o =>
      rw [Option.toList_some]
      have hvalue : d.problem.value? depth ⟨height, package⟩ = some a := by simpa [hentry] using h
      obtain ⟨less, binding, rfl, hbinding, hyield⟩ := d.problem.value?_eq_some hvalue
      obtain rfl : o.binding = binding := Option.some.inj ((d.stored?_problem hentry).symm.trans hbinding)
      rcases Override.yield?_recipe_cases hyield with ⟨target, htarget, hfound⟩ | ⟨htarget, -, hmade⟩
      · have hnew : ¬ o.builds = true := by simp [Override.builds, htarget]
        refine ⟨a, ?_, by rw [Override.changes_concat_of_not_builds hnew]; rfl⟩
        rw [start?_concat_of_not_builds hnew, htarget]
        exact Problem.get?_of_seen? d.propagates_problem hsolved hfound
      rcases hmade with ⟨hinherits, b, hfound, rfl⟩ | ⟨hinherits, version, hversion, rfl⟩
      · have hbuilds : o.builds = true := by simp [Override.builds, htarget, hinherits]
        obtain ⟨start, hstart, rfl⟩ := ih (by rwa [← sight_problem])
        refine ⟨start, by rwa [start?_concat_of_builds hbuilds], ?_⟩
        rw [Override.changes_concat_of_builds hbuilds, Override.changeAll_concat]
      · have hnew : ¬ o.builds = true := by simp [Override.builds, hinherits]
        refine ⟨_, ?_, by rw [Override.changes_concat_of_not_builds hnew]; rfl⟩
        rw [start?_concat_of_not_builds hnew, htarget, hversion]
        rfl

end Declaration

/-- The closed form of a package in the solved set of declared overlays: the row of its overrides, cut at the topmost one
that starts anew, says what each field is. -/
theorem declared_closed_form {d : Declaration} {solution : NameMap Artifact}
    (h : apply (d.sheets.map Sheet.overlay) d.platform d.base = .ok solution) (package : String) :
    (d.entries package = [] → solution.get? package = d.base.get? package) ∧
    (d.entries package ≠ [] → ∃ start a,
      d.start? solution package (d.entries package) = some start ∧ solution.get? package = some a ∧
      a.pname = start.pname ∧ a.platform = start.platform ∧
      a.version = ((Override.changes (d.entries package)).filterMap Override.version).getLast?.getD start.version ∧
      a.patches = start.patches ++ (Override.changes (d.entries package)).flatMap Override.patches ∧
      (∀ attr, a.attrs.get? attr =
        ((Override.changes (d.entries package)).filterMap (·.attrs.get? attr)).getLast?.or (start.attrs.get? attr)) ∧
      a.inputs = ((Override.changes (d.entries package)).filterMap Override.inputs).getLast?.getD start.inputs) := by
  have hsolved : d.problem.solveAnew = .ok solution := d.apply_sheets.symm.trans h
  have hget := Problem.get?_of_solveAnew d.propagates_problem hsolved package
  rw [Declaration.length_layers_problem] at hget
  rw [← Declaration.entriesBelow_length]
  refine ⟨fun hnone => ?_, fun hsome => ?_⟩
  · rw [hget, Problem.seen?, Declaration.sight_problem, Declaration.look_of_entriesBelow_eq_nil hnone, Declaration.look]
    cases d.base.get? package <;> rfl
  · obtain ⟨key, hlook⟩ := Declaration.exists_look_of_entriesBelow_ne_nil hsome
    rw [← Declaration.length_layers_problem, ← Declaration.sight_problem] at hlook
    obtain ⟨a, ha⟩ := Option.isSome_iff_exists.1 (Problem.isSome_get?_of_sight_eq_bound hsolved hlook)
    obtain ⟨start, hstart, rfl⟩ := Declaration.exists_start?_of_seen? hsolved (hget.symm.trans ha)
    exact ⟨start, _, hstart, ha, Override.changeAll_keeps (fun _ _ => rfl) _ _, Override.changeAll_keeps (fun _ _ => rfl) _ _,
      Override.changeAll_replaces (fun _ _ => rfl) _ _, Override.patches_changeAll _ _,
      Override.get?_attrs_changeAll _ _, Override.changeAll_replaces (fun _ _ => rfl) _ _⟩

/-- A package that is another name in the first overlay and is changed in the second, as its target is. -/
def retargeted : Declaration where
  platform := ⟨"x86_64-linux"⟩
  base := .ofList [("hello", { pname := "hello", version := "1.0", platform := ⟨"x86_64-linux"⟩ }),
    ("vim", { pname := "vim", version := "9.0", platform := ⟨"x86_64-linux"⟩, patches := ["base.patch"] })]
  sheets :=
    [{ name := "one", packages := .ofList [("hello", { target := some "vim" })] },
      { name := "two"
        packages := .ofList
          [("hello", { inherits := true, patches := ["two.patch"], attrs := .ofList [("pinned", "yes")] }),
            ("vim", { inherits := true, version := some "9.1", inputs := some [] })] }]

def retargetedSolution : NameMap Artifact :=
  let vim : Artifact := { pname := "vim", version := "9.1", platform := ⟨"x86_64-linux"⟩, patches := ["base.patch"] }
  .ofList [("hello", { vim with patches := ["base.patch", "two.patch"], attrs := .ofList [("pinned", "yes")] }), ("vim", vim)]

theorem retargeted_closed_form :
    apply (retargeted.sheets.map Sheet.overlay) retargeted.platform retargeted.base = .ok retargetedSolution ∧
    retargeted.entries "hello" ≠ [] ∧
    ∃ start a, retargeted.start? retargetedSolution "hello" (retargeted.entries "hello") = some start ∧
      retargetedSolution.get? "hello" = some a ∧ a.pname = start.pname ∧
      a.patches = start.patches ++ (Override.changes (retargeted.entries "hello")).flatMap Override.patches := by
  have hsolved : apply (retargeted.sheets.map Sheet.overlay) retargeted.platform retargeted.base =
      .ok retargetedSolution := by decide +kernel
  have hentries : retargeted.entries "hello" ≠ [] := by
    rw [← List.length_pos_iff]
    decide +kernel
  obtain ⟨start, a, hstart, ha, hpname, -, -, hpatches, -⟩ := (declared_closed_form hsolved "hello").2 hentries
  exact ⟨hsolved, hentries, start, a, hstart, ha, hpname, hpatches⟩

end HostFleet
