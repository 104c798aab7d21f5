import HostFleet.Package.Catalog
import HostFleet.Proofs.Outcome
import HostFleet.Proofs.Package.Declared

/-!
# Built package sets

What a build starts from, where its faults come from, and what holds of every artifact in the set. An artifact starts as an
entry of the catalog or as a new package and goes through any number of overrides, under other names too. None of them
touches its platform. Its inputs are those of its entry in the catalog until an override gives others, which must then be
found in the finished set.
-/

namespace HostFleet

open Overlay

/-! ### Sources and faults -/

namespace Catalog

variable {catalog : Catalog} {platform : Platform}

theorem get?_of_source {base : NameMap Artifact} (h : catalog.source platform = .ok base) (name : String) :
    base.get? name =
      ((catalog.packages.get? name).filter fun e => e.availableOn platform).map fun e => e.artifact name platform := by
  simp only [source] at h
  cases hfind : (catalog.packages.filter fun _ e => e.availableOn platform).entries.find? (fun e => e.2.broken) with
  | some broken => simp [hfind] at h
  | none =>
    rw [hfind] at h
    obtain rfl := Except.ok.inj h
    rw [NameMap.get?_mapWithName, NameMap.get?_filter]

theorem exists_broken_of_source {fault : BuildFault} (h : catalog.source platform = .error fault) :
    ∃ package entry, catalog.packages.get? package = some entry ∧ entry.availableOn platform = true ∧
      entry.broken = true ∧ fault = .unbuildable platform package brokenReason := by
  simp only [source] at h
  cases hfind : (catalog.packages.filter fun _ e => e.availableOn platform).entries.find? (fun e => e.2.broken) with
  | none => simp [hfind] at h
  | some broken =>
    obtain ⟨package, entry⟩ := broken
    rw [hfind] at h
    have hentry := (NameMap.mem_entries_iff _ _ _).1 (List.mem_of_find?_eq_some hfind)
    rw [NameMap.get?_filter, Option.filter_eq_some_iff] at hentry
    have hbroken := List.find?_some hfind
    exact ⟨package, entry, hentry.1, hentry.2, hbroken, (Except.error.inj h).symm⟩

end Catalog

namespace Supply

variable {supply : Supply} {platform : Platform}

def declared (catalog : Catalog) (sheets : List Sheet) : Supply := ⟨catalog.source, sheets.map Sheet.overlay⟩

theorem build_congr {supply supply' : Supply} {platform : Platform} (hsource : supply.source platform = supply'.source platform)
    (hoverlays : ∀ base, Overlay.apply supply.overlays platform base = Overlay.apply supply'.overlays platform base) :
    supply.build platform = supply'.build platform := by
  simp only [build, hsource, hoverlays]

theorem build_eq_ok_iff {set : PackageSet} :
    supply.build platform = .ok set ↔ ∃ base packages, supply.source platform = .ok base ∧
      Overlay.apply supply.overlays platform base = .ok packages ∧ set = ⟨platform, packages⟩ := by
  simp only [build, bind_eq_ok_iff, mapError_eq_ok_iff, Except.ok.injEq, exists_and_left, eq_comm (a := set)]

theorem build_eq_error_iff {fault : BuildFault} :
    supply.build platform = .error fault ↔ supply.source platform = .error fault ∨
      ∃ base inner, supply.source platform = .ok base ∧ Overlay.apply supply.overlays platform base = .error inner ∧
        fault = .overlay platform inner := by
  simp only [build, bind_eq_error_iff, mapError_eq_error_iff, reduceCtorEq, and_false, exists_false, or_false,
    exists_and_left, eq_comm (a := fault)]

end Supply

/-! ### What overrides do to an artifact -/

/-- The artifact is for a platform, and its inputs are among some names or are those of its entry in a catalog. -/
structure Artifact.Accounted (catalog : Catalog) (platform : Platform) (names : List String) (a : Artifact) : Prop where
  platform : a.platform = platform
  inputs : (∀ input ∈ a.inputs, input ∈ names) ∨
    ∃ entry, catalog.packages.get? a.pname = some entry ∧ a.inputs = entry.inputs

section Accounted

variable {catalog : Catalog} {platform : Platform} {names : List String}

theorem Catalog.accounted_of_source {base : NameMap Artifact} (h : catalog.source platform = .ok base) {name : String}
    {a : Artifact} (ha : base.get? name = some a) : a.Accounted catalog platform names := by
  rw [get?_of_source h, Option.map_eq_some_iff] at ha
  obtain ⟨entry, hentry, rfl⟩ := ha
  exact ⟨rfl, .inr ⟨entry, (Option.filter_eq_some_iff.1 hentry).1, rfl⟩⟩

theorem Override.accounted_change {o : Override} (hinputs : ∀ input ∈ o.inputs.getD [], input ∈ names) {a : Artifact}
    (h : a.Accounted catalog platform names) : (o.change a).Accounted catalog platform names := by
  refine ⟨h.platform, ?_⟩
  cases hgiven : o.inputs with
  | none => simpa [change, hgiven] using h.inputs
  | some given => exact .inl (by simpa [change, hgiven] using hinputs)

theorem Override.accounted_create {o : Override} (hinputs : ∀ input ∈ o.inputs.getD [], input ∈ names)
    (package version : String) : (o.create package version platform).Accounted catalog platform names :=
  ⟨rfl, .inl hinputs⟩

/-- Whatever is found at some depth is accounted for, if the base is and every input found at a smaller depth is among the
names. -/
theorem Declaration.accounted_of_seen? {d : Declaration}
    (hbase : ∀ {name a}, d.base.get? name = some a → a.Accounted catalog d.platform names)
    (hnames : ∀ {depth input}, (d.problem.seen? (d.problem.value? depth) input d.problem.layers.length).isSome → input ∈ names)
    {depth : Nat} {package : String} {height : Nat} {a : Artifact}
    (h : d.problem.seen? (d.problem.value? depth) package height = some a) : a.Accounted catalog d.platform names := by
  induction depth using Nat.strongRecOn generalizing package height a with
  | ind depth ih =>
    rw [Problem.seen?] at h
    cases hsight : d.problem.sight package height with
    | absent => simp [hsight] at h
    | given b =>
      obtain rfl : b = a := by simpa [hsight] using h
      exact hbase (d.problem.sight_eq_given hsight)
    | bound key =>
      rw [hsight] at h
      obtain ⟨less, binding, rfl, hbinding, hyield⟩ := d.problem.value?_eq_some h
      have hbound := d.problem.binding?_of_stored? (d.problem.sight_eq_bound hsight).2.2 hbinding
      rw [binding?_problem] at hbound
      obtain ⟨o, -, rfl⟩ := Option.map_eq_some_iff.1 hbound
      rcases Override.yield?_recipe_cases hyield with ⟨target, -, hfound⟩ | ⟨-, hinputs, hmade⟩
      · exact ih less (Nat.lt_succ_self less) hfound
      have hgiven : ∀ input ∈ o.inputs.getD [], input ∈ names := fun input hinput => hnames (hinputs input hinput)
      rcases hmade with ⟨-, b, hfound, rfl⟩ | ⟨-, version, -, rfl⟩
      · exact Override.accounted_change hgiven (ih less (Nat.lt_succ_self less) hfound)
      · exact Override.accounted_create hgiven _ _

end Accounted

/-- Built package sets are well-formed. Every artifact is one for the platform, and its inputs are packages of the set, or
are the inputs of the catalog entry that it comes from. -/
theorem built_set_accounts_for_inputs {catalog : Catalog} {sheets : List Sheet} {platform : Platform} {set : PackageSet}
    (h : (Supply.declared catalog sheets).build platform = .ok set) :
    set.platform = platform ∧ ∀ name a, set.packages.get? name = some a →
      a.platform = platform ∧
      ((∀ input ∈ a.inputs, input ∈ set.names) ∨
        ∃ entry, catalog.packages.get? a.pname = some entry ∧ a.inputs = entry.inputs) := by
  obtain ⟨base, packages, hsource, happly, rfl⟩ := Supply.build_eq_ok_iff.1 h
  let d : Declaration := ⟨platform, base, sheets⟩
  have hsolved : d.problem.solveAnew = .ok packages := d.apply_sheets.symm.trans happly
  refine ⟨rfl, fun name a hget => ?_⟩
  have hnames : ∀ {depth input}, (d.problem.seen? (d.problem.value? depth) input d.problem.layers.length).isSome →
      input ∈ packages.names := by
    intro depth input hseen
    obtain ⟨b, hb⟩ := Option.isSome_iff_exists.1 hseen
    rw [NameMap.mem_names_iff, Problem.get?_of_seen? d.propagates_problem hsolved hb]
    rfl
  rw [Problem.get?_of_solveAnew d.propagates_problem hsolved] at hget
  have haccounted : a.Accounted catalog platform packages.names :=
    Declaration.accounted_of_seen? (Catalog.accounted_of_source hsource) hnames hget
  exact ⟨haccounted.platform, haccounted.inputs⟩

/-- A catalog with an input that it does not have itself. -/
def shelf : Catalog := ⟨.ofList [("hello", { version := "2.12", inputs := ["gettext"] }), ("vim", { version := "9" })]⟩

/-- Overlays that patch a package, give it another name and put a new one beside it. -/
def refits : List Sheet :=
  [⟨"patch", .ofList [("hello", { inherits := true, patches := ["fix.patch"] }), ("hi", { target := some "hello" })]⟩,
    ⟨"tools", .ofList [("hi", { inherits := true, version := some "3" }), ("tool", { version := some "1", inputs := some ["vim"] })]⟩]

def refitted : PackageSet where
  platform := ⟨"x86_64-linux"⟩
  packages :=
    let hello : Artifact :=
      { pname := "hello", version := "2.12", platform := ⟨"x86_64-linux"⟩, patches := ["fix.patch"], inputs := ["gettext"] }
    .ofList [("hello", hello), ("hi", { hello with version := "3" }),
      ("tool", { pname := "tool", version := "1", platform := ⟨"x86_64-linux"⟩, inputs := ["vim"] }),
      ("vim", { pname := "vim", version := "9", platform := ⟨"x86_64-linux"⟩ })]

theorem refitted_accounts_for_inputs :
    (Supply.declared shelf refits).build ⟨"x86_64-linux"⟩ = .ok refitted ∧ "gettext" ∉ refitted.names ∧
    ∀ name a, refitted.packages.get? name = some a →
      a.platform = ⟨"x86_64-linux"⟩ ∧
      ((∀ input ∈ a.inputs, input ∈ refitted.names) ∨
        ∃ entry, shelf.packages.get? a.pname = some entry ∧ a.inputs = entry.inputs) := by
  have hbuild : (Supply.declared shelf refits).build ⟨"x86_64-linux"⟩ = .ok refitted :=
    Supply.build_eq_ok_iff.2 ⟨_, refitted.packages, rfl, by decide +kernel, rfl⟩
  exact ⟨hbuild, by decide +kernel, (built_set_accounts_for_inputs hbuild).2⟩

end HostFleet
