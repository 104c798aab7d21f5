import HostFleet.Proofs.Package.Column

/-!
# Declared overlays, merged and taken apart

Declared overlays may be merged before they are put into a chain. A `Bundle` is such a merge, in any bracketing, and the
columns of a chain of bundles are those of the sheets in it. So what holds of columns says how a chain may be rearranged:
overlays that share no package may change places, and an overlay may be taken apart by package.
-/

namespace HostFleet

open Overlay

/-! ### One package of a sheet -/

namespace Sheet

def only (package : String) (sheet : Sheet) : Sheet :=
  { sheet with packages := sheet.packages.filter fun name _ => name = package }

theorem get?_only (package : String) (sheet : Sheet) (name : String) :
    (sheet.only package).packages.get? name = if name = package then sheet.packages.get? name else none := by
  rw [only, NameMap.get?_filter]
  by_cases hname : name = package <;> cases sheet.packages.get? name <;> simp [hname, Option.filter]

theorem mem_names_only (sheet : Sheet) (package name : String) :
    name ∈ (sheet.only package).packages.names ↔ name = package ∧ name ∈ sheet.packages.names := by
  rw [NameMap.mem_names_iff, NameMap.mem_names_iff, get?_only]
  by_cases hname : name = package <;> simp [hname]

theorem column_only (platform : Platform) (package : String) (sheets : List Sheet) (name : String) :
    column platform (sheets.map (only package)) name = if name = package then column platform sheets name else [] := by
  rw [column, column, List.filterMap_map]
  by_cases hname : name = package
  · rw [if_pos hname]
    refine List.filterMap_congr fun sheet _ => ?_
    simp only [Function.comp_apply, override?, get?_only, if_pos hname]
    rfl
  · rw [if_neg hname, List.filterMap_eq_nil_iff]
    intro sheet _
    simp [get?_only, override?, hname]

theorem column_eq_nil (platform : Platform) {sheets : List Sheet} {package : String}
    (h : ∀ sheet ∈ sheets, package ∉ sheet.packages.names) : column platform sheets package = [] := by
  rw [column, List.filterMap_eq_nil_iff]
  intro sheet hsheet
  have hnone : sheet.packages.get? package = none := by
    simpa [NameMap.mem_names_iff] using h sheet hsheet
  simp [hnone, override?]

/-- Sheets taken apart by package have the columns they had, of the packages that were taken. -/
theorem column_flatMap_only (platform : Platform) (sheets : List Sheet) {names : List String} (hnames : names.Nodup)
    (package : String) :
    column platform (names.flatMap fun name => sheets.map (only name)) package =
      if package ∈ names then column platform sheets package else [] := by
  induction names with
  | nil => rfl
  | cons name rest ih =>
    obtain ⟨hfirst, hrest⟩ := List.nodup_cons.1 hnames
    rw [List.flatMap_cons, column_append, column_only, ih hrest]
    by_cases hpackage : package = name
    · subst hpackage
      simp [hfirst]
    · simp [hpackage]

end Sheet

/-! ### Merged sheets -/

/-- Sheets merged in some order and bracketing. -/
inductive Bundle where
  | single (sheet : Sheet)
  | merge (lower upper : Bundle)

namespace Bundle

def sheets : Bundle → List Sheet
  | .single sheet => [sheet]
  | .merge lower upper => lower.sheets ++ upper.sheets

def overlay : Bundle → Overlay Artifact
  | .single sheet => sheet.overlay
  | .merge lower upper => lower.overlay.merge upper.overlay

/-- Who overrides a package on a platform, and how, in a chain of bundles from the bottom up. -/
def column (platform : Platform) (chain : List Bundle) (package : String) : List (String × Override) :=
  Sheet.column platform (chain.flatMap sheets) package

/-- What a bundle says about one package, in a bundle of the same name. -/
def only (package : String) : Bundle → Bundle
  | .single sheet => .single (sheet.only package)
  | .merge lower upper => .merge (lower.only package) (upper.only package)

/-- A bundle for each package. -/
def split (whole : Bundle) : List Bundle := whole.overlay.names.map fun package => whole.only package

theorem column_append (platform : Platform) (chain chain' : List Bundle) (package : String) :
    column platform (chain ++ chain') package = column platform chain package ++ column platform chain' package := by
  rw [column, List.flatMap_append, Sheet.column_append]
  rfl

theorem column_cons (platform : Platform) (first : Bundle) (rest : List Bundle) (package : String) :
    column platform (first :: rest) package = column platform [first] package ++ column platform rest package :=
  column_append platform [first] rest package

theorem layers_overlay (b : Bundle) : b.overlay.layers = stack (b.sheets.map Sheet.overlay) := by
  induction b with
  | single sheet => simp [overlay, sheets, stack]
  | merge lower upper ihLower ihUpper =>
    rw [overlay, layers_merge, ihLower, ihUpper, sheets, List.map_append, stack_append]

theorem apply_overlays (chain : List Bundle) (platform : Platform) (base : NameMap Artifact) :
    apply (chain.map overlay) platform base = apply ((chain.flatMap sheets).map Sheet.overlay) platform base := by
  have hstack : stack (chain.map overlay) = stack ((chain.flatMap sheets).map Sheet.overlay) := by
    induction chain with
    | nil => rfl
    | cons first rest ih =>
      rw [List.map_cons, stack_cons, layers_overlay, ih, List.flatMap_cons, List.map_append, stack_append]
  rw [apply, apply, hstack]

theorem apply_eq_of_column {platform : Platform} {chain chain' : List Bundle}
    (h : ∀ package, column platform chain package = column platform chain' package) (base : NameMap Artifact) :
    apply (chain.map overlay) platform base = apply (chain'.map overlay) platform base := by
  rw [apply_overlays, apply_overlays]
  exact apply_sheets_eq_of_column h base

/-! ### Taking a bundle apart -/

theorem mem_names_overlay (b : Bundle) (package : String) :
    package ∈ b.overlay.names ↔ ∃ sheet ∈ b.sheets, package ∈ sheet.packages.names := by
  rw [Overlay.names, NameMap.mem_names_ofList, layers_overlay]
  simp [stack, Sheet.overlay, Override.overlay_eq, layers, NameMap.names_map]

theorem column_eq_nil (platform : Platform) {chain : List Bundle} {package : String}
    (h : ∀ b ∈ chain, package ∉ b.overlay.names) : column platform chain package = [] := by
  refine Sheet.column_eq_nil platform fun sheet hsheet hname => ?_
  obtain ⟨b, hb, hmem⟩ := List.mem_flatMap.1 hsheet
  exact h b hb ((b.mem_names_overlay package).2 ⟨sheet, hmem, hname⟩)

theorem sheets_only (package : String) (b : Bundle) : (b.only package).sheets = b.sheets.map (Sheet.only package) := by
  induction b with
  | single sheet => rfl
  | merge lower upper ihLower ihUpper => rw [only, sheets, ihLower, ihUpper, sheets, List.map_append]

theorem name_only (package : String) (b : Bundle) : (b.only package).overlay.name = b.overlay.name := by
  induction b with
  | single sheet => simp [only, overlay, Sheet.overlay, Override.overlay_eq, Sheet.only]
  | merge lower upper ihLower ihUpper => simp [only, overlay, Overlay.merge, ihLower, ihUpper]

theorem names_only {b : Bundle} {package : String} (h : package ∈ b.overlay.names) :
    (b.only package).overlay.names = [package] := by
  have hone : ∀ name, name ∈ (b.only package).overlay.names ↔ name ∈ (NameMap.ofList [(package, ())]).names := by
    intro name
    rw [mem_names_overlay, sheets_only, NameMap.mem_names_ofList, List.map_singleton, List.mem_singleton]
    constructor
    · rintro ⟨part, hpart, hname⟩
      obtain ⟨sheet, -, rfl⟩ := List.mem_map.1 hpart
      exact ((sheet.mem_names_only package name).1 hname).1
    · rintro rfl
      obtain ⟨sheet, hsheet, hname⟩ := (b.mem_names_overlay name).1 h
      exact ⟨sheet.only name, List.mem_map_of_mem hsheet, (sheet.mem_names_only name name).2 ⟨rfl, hname⟩⟩
  exact NameMap.names_eq_of_mem_iff hone

theorem column_split (platform : Platform) (whole : Bundle) (package : String) :
    column platform whole.split package = column platform [whole] package := by
  have hsheets : whole.split.flatMap sheets = whole.overlay.names.flatMap fun name => whole.sheets.map (Sheet.only name) := by
    rw [split, List.flatMap_map]
    exact List.flatMap_congr fun name _ => sheets_only name whole
  have hnames : whole.overlay.names.Nodup := NameMap.nodup_names _
  rw [column, hsheets, Sheet.column_flatMap_only platform _ hnames]
  by_cases hmem : package ∈ whole.overlay.names
  · rw [if_pos hmem, column, List.flatMap_singleton]
  · rw [if_neg hmem, column_eq_nil platform (by simpa using hmem)]

end Bundle

/-- Chains of declared overlays in which every package has the same column on a platform are solved alike there. So
overlays that share no package may change places, and an overlay may be taken apart by package. -/
theorem declared_apply_eq_of_column (platform : Platform) (base : NameMap Artifact) :
    (∀ chain chain' : List Bundle,
      (∀ package, Bundle.column platform chain package = Bundle.column platform chain' package) →
      apply (chain.map Bundle.overlay) platform base = apply (chain'.map Bundle.overlay) platform base) ∧
    (∀ (below above : List Bundle) (first second : Bundle),
      (∀ package, Bundle.column platform [first] package = [] ∨ Bundle.column platform [second] package = []) →
      apply ((below ++ first :: second :: above).map Bundle.overlay) platform base =
        apply ((below ++ second :: first :: above).map Bundle.overlay) platform base) ∧
    (∀ (below above : List Bundle) (whole : Bundle),
      whole.split.map (fun part => (part.overlay.name, part.overlay.names)) =
        whole.overlay.names.map (fun package => (whole.overlay.name, [package])) ∧
      apply ((below ++ whole :: above).map Bundle.overlay) platform base =
        apply ((below ++ whole.split ++ above).map Bundle.overlay) platform base) := by
  refine ⟨fun chain chain' h => Bundle.apply_eq_of_column h base, fun below above first second h => ?_,
    fun below above whole => ⟨?_, ?_⟩⟩
  · refine Bundle.apply_eq_of_column (fun package => ?_) base
    rw [Bundle.column_append, Bundle.column_append, Bundle.column_cons platform first (second :: above),
      Bundle.column_cons platform second above, Bundle.column_cons platform second (first :: above),
      Bundle.column_cons platform first above]
    rcases h package with hnone | hnone <;> simp [hnone]
  · rw [Bundle.split, List.map_map]
    refine List.map_congr_left fun package hpackage => ?_
    simp only [Function.comp_apply, Bundle.name_only, Bundle.names_only hpackage]
  · refine Bundle.apply_eq_of_column (fun package => ?_) base
    rw [Bundle.column_append, Bundle.column_cons, Bundle.column_append, Bundle.column_append, Bundle.column_split,
      List.append_assoc]

def helloBase : NameMap Artifact := .ofList [("hello", { pname := "hello", version := "1.0", platform := ⟨"x86_64-linux"⟩ })]

/-- A package with an input that only another overlay has. -/
def greeting : Bundle := .single ⟨"a", .ofList [("hello", { inherits := true, inputs := some ["tool"] })]⟩

/-- The input, which has the package as an input in turn, limited to some platforms beside a package of another one. -/
def tooling : Bundle :=
  .single ⟨"b", .ofList [("game", { version := some "2", platforms := [⟨"aarch64-linux"⟩] }),
    ("tool", { version := some "1", inputs := some ["hello"], platforms := [⟨"x86_64-linux"⟩, ⟨"aarch64-linux"⟩] })]⟩

/-- Both merged, without the limits. -/
def knot : Bundle :=
  .merge greeting (.single ⟨"b", .ofList [("tool", { version := some "1", inputs := some ["hello"] })]⟩)

theorem column_knot (package : String) :
    Bundle.column ⟨"x86_64-linux"⟩ [knot] package = Bundle.column ⟨"x86_64-linux"⟩ [greeting, tooling] package := by
  by_cases hpackage : package ∈ ["game", "hello", "tool"]
  · simp only [List.mem_cons, List.not_mem_nil, or_false] at hpackage
    rcases hpackage with rfl | rfl | rfl <;> rfl
  · have hknot : ∀ b ∈ [knot], b.overlay.names ⊆ ["game", "hello", "tool"] := by decide +kernel
    have hapart : ∀ b ∈ [greeting, tooling], b.overlay.names ⊆ ["game", "hello", "tool"] := by decide +kernel
    rw [Bundle.column_eq_nil _ fun b hb hname => hpackage (hknot b hb hname),
      Bundle.column_eq_nil _ fun b hb hname => hpackage (hapart b hb hname)]

theorem column_greeting_or_tooling (package : String) :
    Bundle.column ⟨"x86_64-linux"⟩ [greeting] package = [] ∨ Bundle.column ⟨"x86_64-linux"⟩ [tooling] package = [] := by
  have hgreeting : ∀ b ∈ [greeting], b.overlay.names = ["hello"] := by decide +kernel
  have htooling : ∀ b ∈ [tooling], "hello" ∉ b.overlay.names := by decide +kernel
  by_cases hhello : package = "hello"
  · exact .inr (Bundle.column_eq_nil _ fun b hb => hhello ▸ htooling b hb)
  · exact .inl (Bundle.column_eq_nil _ fun b hb => by simpa [hgreeting b hb] using hhello)

/-- The knot is the same cycle however its overlays are merged, limited and ordered. -/
theorem knot_apply_eq_of_column :
    (∀ package, Bundle.column ⟨"x86_64-linux"⟩ [knot] package =
      Bundle.column ⟨"x86_64-linux"⟩ [greeting, tooling] package) ∧
    (∀ package, Bundle.column ⟨"x86_64-linux"⟩ [greeting] package = [] ∨
      Bundle.column ⟨"x86_64-linux"⟩ [tooling] package = []) ∧
    apply ([greeting, tooling].map Bundle.overlay) ⟨"x86_64-linux"⟩ helloBase =
      .error (.cycle ["a:hello", "b:tool", "a:hello"]) ∧
    apply ([tooling, greeting].map Bundle.overlay) ⟨"x86_64-linux"⟩ helloBase =
      .error (.cycle ["a:hello", "b:tool", "a:hello"]) := by
  obtain ⟨hsame, hswap, -⟩ := declared_apply_eq_of_column ⟨"x86_64-linux"⟩ helloBase
  have hfault : apply ([knot].map Bundle.overlay) ⟨"x86_64-linux"⟩ helloBase =
      .error (.cycle ["a:hello", "b:tool", "a:hello"]) := by decide +kernel
  have happly := (hsame [knot] [greeting, tooling] column_knot).symm.trans hfault
  have hother := (hswap [] [] greeting tooling column_greeting_or_tooling).symm.trans happly
  exact ⟨column_knot, column_greeting_or_tooling, happly, hother⟩

end HostFleet
