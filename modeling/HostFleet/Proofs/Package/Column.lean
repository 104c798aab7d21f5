import HostFleet.Proofs.Overlay.Correspondence
import HostFleet.Proofs.Package.Declared

/-!
# Only the order per package matters

Through a stack of declared overlays each package has its column: who overrides it on the platform, and how, from the
bottom up. Two stacks over one base with the same columns have the same solution, or the same fault, however their layers
are numbered, merged or limited to other platforms. An override asks the set below it for its own package only, so where
it stands in the column says all about what it finds; entries of the two stacks are paired by their place in the column.
-/

namespace HostFleet

open Overlay

namespace Override

def anywhere (o : Override) : Override := { o with platforms := [] }

/-- Neither the layer of an override nor its limit to platforms is seen in its recipe. -/
theorem recipe_eq_of_anywhere_eq {o o' : Override} (h : o.anywhere = o'.anywhere) (platform : Platform) (level level' : Nat)
    (package origin : String) : o'.recipe ⟨platform, level', package, origin⟩ = o.recipe ⟨platform, level, package, origin⟩ := by
  have hsame : o'.anywhere.recipe ⟨platform, level, package, origin⟩ = o.anywhere.recipe ⟨platform, level, package, origin⟩ := by
    rw [h]
  exact hsame

theorem asksBelow_demandAll {names : String → Prop} {next : Recipe Artifact} (h : next.AsksBelow names)
    (packages : List String) : (Recipe.demandAll packages next).AsksBelow names := by
  induction packages with
  | nil => exact h
  | cons package rest ih =>
    intro answer
    cases answer with
    | ok a => exact ih
    | error e => trivial

/-- An override asks the set below it for nothing but its own package, and for that only if it builds on it. -/
theorem asksBelow_recipe (o : Override) (scope : Scope) :
    (o.recipe scope).AsksBelow fun name => (o.target = none ∧ o.inherits = true) ∧ name = scope.package := by
  generalize hnames : (fun name => (o.target = none ∧ o.inherits = true) ∧ name = scope.package) = names
  have hvalue : ∀ a : Artifact, (Recipe.value a).AsksBelow names := fun _ => trivial
  have hinputs : ∀ a, (o.withInputs a).AsksBelow names := fun a => asksBelow_demandAll (hvalue a) _
  unfold recipe
  split
  · intro answer
    cases answer <;> trivial
  · rename_i htarget
    split
    · rename_i hinherits
      refine ⟨hnames ▸ ⟨⟨htarget, hinherits⟩, rfl⟩, fun answer => ?_⟩
      cases answer with
      | ok a => exact hinputs _
      | error e => trivial
    · split
      · trivial
      · exact hinputs _

end Override

/-- Who overrides a package on a platform, and how, in some sheets from the bottom up. -/
def Sheet.column (platform : Platform) (sheets : List Sheet) (package : String) : List (String × Override) :=
  sheets.filterMap fun sheet => (sheet.override? platform package).map fun o => (sheet.name, o.anywhere)

theorem Sheet.column_append (platform : Platform) (sheets sheets' : List Sheet) (package : String) :
    column platform (sheets ++ sheets') package = column platform sheets package ++ column platform sheets' package :=
  List.filterMap_append

namespace Declaration

variable {d d' : Declaration}

/-! ### Places in a column -/

/-- How many entries a package has below a height. -/
def rank (d : Declaration) (package : String) (height : Nat) : Nat :=
  (Sheet.column d.platform (d.sheets.take height) package).length

theorem rank_succ (package : String) (height : Nat) :
    d.rank package (height + 1) = d.rank package height + if (d.override? ⟨height, package⟩).isSome then 1 else 0 := by
  rw [rank, rank, List.take_add_one, Sheet.column_append, List.length_append, override?]
  cases d.sheets[height]? with
  | none => rfl
  | some sheet => cases hentry : sheet.override? d.platform package <;> simp [Sheet.column, hentry]

theorem rank_length (package : String) :
    d.rank package d.sheets.length = (Sheet.column d.platform d.sheets package).length := by
  rw [rank, List.take_length]

theorem rank_mono (package : String) {low high : Nat} (h : low ≤ high) : d.rank package low ≤ d.rank package high := by
  induction h with
  | refl => exact Nat.le_refl _
  | step _ ih =>
    rw [rank_succ]
    omega

theorem rank_lt_of_lt {key : Key} (hentry : (d.override? key).isSome) {height : Nat} (h : key.layer < height) :
    d.rank key.name key.layer < d.rank key.name height := by
  have hnext : d.rank key.name (key.layer + 1) = d.rank key.name key.layer + 1 := by
    rw [rank_succ, if_pos hentry]
  have hmono : d.rank key.name (key.layer + 1) ≤ d.rank key.name height := rank_mono key.name h
  omega

theorem eq_of_rank_eq {key other : Key} (hkey : (d.override? key).isSome) (hother : (d.override? other).isSome)
    (hname : key.name = other.name) (hrank : d.rank key.name key.layer = d.rank other.name other.layer) : key = other := by
  rcases Nat.lt_trichotomy key.layer other.layer with hlt | heq | hgt
  · have hless := rank_lt_of_lt hkey hlt
    rw [hrank, hname] at hless
    omega
  · obtain ⟨layer, name⟩ := key
    obtain ⟨layer', name'⟩ := other
    simp_all
  · have hless := rank_lt_of_lt hother hgt
    rw [← hrank, ← hname] at hless
    omega

/-- What a look-up finds, by the number of entries that it passes. -/
theorem look_cases (d : Declaration) (package : String) (height : Nat) :
    (d.rank package height = 0 ∧ d.look package height = d.look package 0) ∨
    ∃ key, d.look package height = .bound key ∧ key.name = package ∧ (d.override? key).isSome ∧
      d.rank package height = d.rank package key.layer + 1 := by
  induction height with
  | zero => exact .inl ⟨rfl, rfl⟩
  | succ height ih =>
    have hnext : d.look package (height + 1) =
        if (d.override? ⟨height, package⟩).isSome then .bound ⟨height, package⟩ else d.look package height := rfl
    rw [rank_succ, hnext]
    by_cases hentry : (d.override? ⟨height, package⟩).isSome
    · rw [if_pos hentry, if_pos hentry]
      exact .inr ⟨⟨height, package⟩, rfl, rfl, hentry, rfl⟩
    · rw [if_neg hentry, if_neg hentry]
      exact ih

theorem origin_problem_eq (d : Declaration) (layer : Nat) :
    d.problem.origin layer = ((d.sheets.map Sheet.name)[layer]?).getD "<base>" := by
  rw [Problem.origin, layers_problem, List.getElem?_map, List.getElem?_map]
  cases d.sheets[layer]? <;> rfl

theorem origin_problem {key : Key} {sheet : Sheet} (h : d.sheets[key.layer]? = some sheet) :
    d.problem.origin key.layer = sheet.name := by
  rw [origin_problem_eq, List.getElem?_map, h]
  rfl

/-- The entry at a key stands in the column of its package where its rank says. -/
theorem getElem?_column {key : Key} {o : Override} (h : d.override? key = some o) :
    (Sheet.column d.platform d.sheets key.name)[d.rank key.name key.layer]? =
      some (d.problem.origin key.layer, o.anywhere) := by
  rw [override?] at h
  cases hsheet : d.sheets[key.layer]? with
  | none => simp [hsheet] at h
  | some sheet =>
    rw [hsheet] at h
    obtain ⟨hlayer, hget⟩ := List.getElem?_eq_some_iff.1 hsheet
    have hcut : d.sheets = d.sheets.take key.layer ++ sheet :: d.sheets.drop (key.layer + 1) := by
      rw [← hget, List.getElem_cons_drop, List.take_append_drop]
    rw [origin_problem hsheet, rank]
    nth_rewrite 1 [hcut]
    rw [Sheet.column_append, List.getElem?_append_right (Nat.le_refl _), Nat.sub_self]
    simp [Sheet.column, h]

/-! ### Two declarations with the same columns -/

/-- Two entries stand at the same place in the columns of one package. -/
structure Aligned (d d' : Declaration) (key key' : Key) : Prop where
  name : key.name = key'.name
  left : (d.override? key).isSome
  right : (d'.override? key').isSome
  rank : d.rank key.name key.layer = d'.rank key'.name key'.layer

theorem Aligned.eq_iff {key key' other other' : Key} (h : Aligned d d' key key') (h' : Aligned d d' other other') :
    key = other ↔ key' = other' := by
  constructor
  · rintro rfl
    exact eq_of_rank_eq h.right h'.right (h.name.symm.trans h'.name) (h.rank.symm.trans h'.rank)
  · rintro rfl
    exact eq_of_rank_eq h.left h'.left (h.name.trans h'.name.symm) (h.rank.trans h'.rank.symm)

theorem match_look (hbase : d.base = d'.base) {package : String} {height height' : Nat}
    (hrank : d.rank package height = d'.rank package height') :
    (d.look package height).Match (Aligned d d') (d'.look package height') := by
  rcases look_cases d package height with ⟨hzero, hlook⟩ | ⟨key, hlook, rfl, hentry, hkey⟩
  · rcases look_cases d' package height' with ⟨-, hlook'⟩ | ⟨key', -, -, -, hkey'⟩
    · rw [hlook, hlook', look, look, hbase]
      cases d'.base.get? package with
      | none => exact .absent
      | some a => exact .given a
    · omega
  · rcases look_cases d' key.name height' with ⟨hzero', -⟩ | ⟨key', hlook', hname, hentry', hkey'⟩
    · omega
    · rw [hlook, hlook']
      refine .bound ⟨hname.symm, hentry, hentry', ?_⟩
      rw [hname]
      omega

section Columns

variable (hcolumn : ∀ package, Sheet.column d.platform d.sheets package = Sheet.column d'.platform d'.sheets package)

include hcolumn

/-- Aligned entries have the same origin and the same override, limits to platforms aside. -/
theorem Aligned.entry {key key' : Key} (h : Aligned d d' key key') :
    ∃ o o', d.override? key = some o ∧ d'.override? key' = some o' ∧ o.anywhere = o'.anywhere ∧
      d.problem.origin key.layer = d'.problem.origin key'.layer := by
  obtain ⟨o, ho⟩ := Option.isSome_iff_exists.1 h.left
  obtain ⟨o', ho'⟩ := Option.isSome_iff_exists.1 h.right
  have hplace := getElem?_column ho
  rw [hcolumn, h.rank, h.name, getElem?_column ho'] at hplace
  obtain ⟨horigin, hsame⟩ := Prod.mk.inj (Option.some.inj hplace)
  exact ⟨o, o', ho, ho', hsame.symm, horigin.symm⟩

theorem correspondence (hplatform : d.platform = d'.platform) (hbase : d.base = d'.base) :
    Correspondence d.problem d'.problem (Aligned d d') where
  final package := by
    rw [sight_problem, sight_problem, length_layers_problem, length_layers_problem]
    apply match_look hbase
    rw [rank_length, rank_length, hcolumn]
  eq_iff := Aligned.eq_iff
  frame := by
    intro key key' h
    obtain ⟨-, -, -, -, -, horigin⟩ := h.entry hcolumn
    simp only [Scope.frame, Problem.scope, horigin, h.name]
  recipe := by
    intro key key' h
    obtain ⟨o, o', ho, ho', hsame, horigin⟩ := h.entry hcolumn
    refine ⟨o.binding, o'.binding, by rw [binding?_problem, ho]; rfl, by rw [binding?_problem, ho']; rfl, ?_, ?_⟩
    · have hscope : d'.problem.scope key' = ⟨d.platform, key'.layer, key.name, d.problem.origin key.layer⟩ := by
        rw [Problem.scope, horigin, h.name, hplatform]
        rfl
      rw [hscope]
      exact Override.recipe_eq_of_anywhere_eq hsame _ _ _ _ _
    · refine (o.asksBelow_recipe (d.problem.scope key)).mono fun package hpackage => ?_
      obtain rfl : package = key.name := hpackage.2
      rw [sight_problem, sight_problem]
      exact match_look hbase (h.name ▸ h.rank)

end Columns

end Declaration

theorem apply_sheets_eq_of_column {platform : Platform} {sheets sheets' : List Sheet}
    (h : ∀ package, Sheet.column platform sheets package = Sheet.column platform sheets' package) (base : NameMap Artifact) :
    apply (sheets.map Sheet.overlay) platform base = apply (sheets'.map Sheet.overlay) platform base := by
  let d : Declaration := ⟨platform, base, sheets⟩
  let d' : Declaration := ⟨platform, base, sheets'⟩
  have hsame : Correspondence d.problem d'.problem (Declaration.Aligned d d') := Declaration.correspondence h rfl rfl
  calc apply (sheets.map Sheet.overlay) platform base
    _ = d.problem.solveAnew := d.apply_sheets
    _ = d'.problem.solveAnew := hsame.solveAnew_eq
    _ = apply (sheets'.map Sheet.overlay) platform base := d'.apply_sheets.symm

end HostFleet
