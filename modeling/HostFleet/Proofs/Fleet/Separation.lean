import HostFleet.Proofs.Fleet.History
import HostFleet.Proofs.Package.Build
import HostFleet.Proofs.Package.Column

/-!
# Platforms do not see each other

What a platform sees of a catalog or of a declared overlay is its `view`: the entries that exist on the platform, without
the limit that let them through. Package sets are functions of views. The source reads the catalog through its view, the
column of a package is read off the views of the overlays, and a host reads nothing but the package set of its platform. So
two fleets may differ in all that is limited to other platforms and no host of this one can tell.
-/

namespace HostFleet

/-! ### Catalogs -/

def CatalogEntry.anywhere (e : CatalogEntry) : CatalogEntry := { e with platforms := [] }

namespace Catalog

/-- What a platform sees of a catalog. -/
def view (platform : Platform) (c : Catalog) : NameMap CatalogEntry :=
  c.packages.view (·.availableOn platform) CatalogEntry.anywhere

theorem filter_view (platform : Platform) (c : Catalog) :
    (c.view platform).filter (fun _ e => e.availableOn platform) = c.view platform := by
  refine NameMap.ext_get? fun name => ?_
  rw [NameMap.get?_filter, view, NameMap.get?_view]
  cases (c.packages.get? name).filter (·.availableOn platform) with
  | none => rfl
  | some e => rfl

/-- The packages of a platform are those of what it sees, the first broken one included. -/
theorem source_view (platform : Platform) (c : Catalog) : source ⟨c.view platform⟩ platform = c.source platform := by
  let available := c.packages.filter fun _ e => e.availableOn platform
  have hfind : (c.view platform).entries.find? (fun e => e.2.broken) =
      (available.entries.find? fun e => e.2.broken).map fun e => (e.1, e.2.anywhere) := List.find?_map
  have hartifacts : (c.view platform).mapWithName (fun name e => e.artifact name platform) =
      available.mapWithName fun name e => e.artifact name platform := by
    refine NameMap.ext_get? fun name => ?_
    rw [NameMap.get?_mapWithName, NameMap.get?_mapWithName, view, NameMap.get?_view, NameMap.get?_filter, Option.map_map]
    rfl
  simp only [source, filter_view, hfind, hartifacts]
  cases available.entries.find? (fun e => e.2.broken) with
  | none => rfl
  | some e => rfl

end Catalog

/-! ### Overlays -/

namespace Sheet

/-- What a platform sees of a declared overlay. -/
def view (platform : Platform) (sheet : Sheet) : String × NameMap Override :=
  (sheet.name, sheet.packages.view (·.appliesOn platform) Override.anywhere)

theorem column_eq_of_view {platform : Platform} {sheets sheets' : List Sheet}
    (h : sheets.map (view platform) = sheets'.map (view platform)) (package : String) :
    column platform sheets package = column platform sheets' package := by
  have hview : ∀ l : List Sheet, column platform l package =
      (l.map (view platform)).filterMap fun v => (v.2.get? package).map fun o => (v.1, o) := by
    intro l
    rw [column, List.filterMap_map]
    refine congrArg (List.filterMap · l) (funext fun sheet => ?_)
    rw [Function.comp_apply, view, NameMap.get?_view, Option.map_map, Sheet.override?]
    rfl
  rw [hview, hview, h]

theorem map_view_eq_of_eqAside {platform : Platform} {sheets sheets' : List Sheet}
    (h : List.Forall₂ (fun sheet sheet' => sheet.name = sheet'.name ∧
      sheet.packages.EqAside (fun o => o.appliesOn platform = false) sheet'.packages) sheets sheets') :
    sheets.map (view platform) = sheets'.map (view platform) := by
  induction h with
  | nil => rfl
  | cons hfirst _ ih =>
    obtain ⟨hname, hpackages⟩ := hfirst
    rw [List.map_cons, List.map_cons, ih, view, view, hname, NameMap.view_eq_of_eqAside hpackages]

end Sheet

/-! ### Package sets and hosts -/

namespace Supply

theorem build_declared_eq_of_view {platform : Platform} {catalog catalog' : Catalog} {sheets sheets' : List Sheet}
    (hcatalog : catalog.view platform = catalog'.view platform)
    (hsheets : sheets.map (Sheet.view platform) = sheets'.map (Sheet.view platform)) :
    (declared catalog sheets).build platform = (declared catalog' sheets').build platform := by
  apply build_congr
  · change catalog.source platform = catalog'.source platform
    rw [← catalog.source_view, hcatalog, catalog'.source_view]
  · exact apply_sheets_eq_of_column (Sheet.column_eq_of_view hsheets)

end Supply

theorem Host.configured_congr {host : Host} {settings : Settings} {supply supply' : Supply}
    (h : supply.build (host.home settings) = supply'.build (host.home settings)) :
    host.configured settings supply = host.configured settings supply' := by
  rw [configured, configured, h]

/-- Platforms do not interfere. Where a platform sees the same of two catalogs and of two stacks of declared overlays, it has
the same package set or the same fault in both, with the same digest, whatever was built before, and so its hosts resolve to
the same; and a platform sees nothing of what changes in entries that are limited to others. -/
theorem declared_platforms_separate (platform : Platform) (catalog catalog' : Catalog) (sheets sheets' : List Sheet) :
    (catalog.view platform = catalog'.view platform → sheets.map (Sheet.view platform) = sheets'.map (Sheet.view platform) →
      ∀ fleet fleet' : Fleet, fleet.supply = .declared catalog sheets → fleet'.supply = .declared catalog' sheets' →
      (∀ past past', ((fleet.supply.get platform).run (fleet.supply.after past)).1 =
        ((fleet'.supply.get platform).run (fleet'.supply.after past')).1) ∧
      (fleet.supply.build platform).map PackageSet.digest = (fleet'.supply.build platform).map PackageSet.digest ∧
      (fleet.settings = fleet'.settings → ∀ name host, fleet.registry.get? name = some host →
        fleet'.registry.get? name = some host → host.home fleet.settings = platform → ∀ past past',
        ((fleet.resolveHost name).run (fleet.after past)).1 = ((fleet'.resolveHost name).run (fleet'.after past')).1)) ∧
    (catalog.packages.EqAside (fun e => e.availableOn platform = false) catalog'.packages →
      catalog.view platform = catalog'.view platform) ∧
    (List.Forall₂ (fun sheet sheet' => sheet.name = sheet'.name ∧
        sheet.packages.EqAside (fun o => o.appliesOn platform = false) sheet'.packages) sheets sheets' →
      sheets.map (Sheet.view platform) = sheets'.map (Sheet.view platform)) := by
  refine ⟨fun hcatalog hsheets fleet fleet' hsupply hsupply' => ?_, fun hedit => NameMap.view_eq_of_eqAside hedit _,
    Sheet.map_view_eq_of_eqAside⟩
  have hbuild : fleet.supply.build platform = fleet'.supply.build platform := by
    rw [hsupply, hsupply', Supply.build_declared_eq_of_view hcatalog hsheets]
  refine ⟨fun past past' => ?_, by rw [hbuild], ?_⟩
  · rw [fleet.supply.get_after, fleet'.supply.get_after, hbuild]
  · intro hsettings name host hget hget' hhome past past'
    rw [fleet.resolveHost_after past hget, fleet'.resolveHost_after past' hget', ← hsettings]
    apply Host.configured_congr
    rw [hhome, hbuild]

/-- A game for the default platform only, beside a package for all. -/
def gameCatalog : Catalog :=
  ⟨.ofList [("hello", { version := "2.12" }), ("steam", { version := "1.0", platforms := [⟨"x86_64-linux"⟩] })]⟩

/-- A patch of the game, and a new version of the other package for another platform. -/
def games : Sheet :=
  ⟨"games", .ofList [("hello", { inherits := true, version := some "3.0", platforms := [⟨"aarch64-linux"⟩] }),
    ("steam", { inherits := true, patches := ["steam.patch"], platforms := [⟨"x86_64-linux"⟩] })]⟩

def brokenGame : Catalog :=
  ⟨gameCatalog.packages.insert "steam" { version := "1.1", platforms := [⟨"x86_64-linux"⟩], broken := true }⟩

def unpatched : Sheet := ⟨"games", games.packages.erase "steam"⟩

/-- A host on another platform than the game is unaffected where the game breaks and its patch is dropped, though the
default platform fails. -/
theorem games_platforms_separate :
    let fleet : Fleet := ⟨{}, (Registry.ofHosts [adenine, lightning]).toOption.getD {}, .declared gameCatalog [games]⟩
    let fleet' : Fleet := ⟨{}, (Registry.ofHosts [lightning]).toOption.getD {}, .declared brokenGame [unpatched]⟩
    fleet.registry.get? "lightning" = some lightning ∧ fleet'.registry.get? "lightning" = some lightning ∧
    ((fleet.resolveHost "lightning").run (fleet.after errands)).1 =
      ((fleet'.resolveHost "lightning").run (fleet'.after [.list])).1 ∧
    ((fleet.resolveHost "lightning").run (fleet.after errands)).1.toOption.map (·.packages.packages.entries.map
      fun e => (e.1, e.2.version)) = some [("hello", "3.0")] ∧
    (fleet.supply.build ⟨"x86_64-linux"⟩).toOption.map PackageSet.names = some ["hello", "steam"] ∧
    fleet'.supply.build ⟨"x86_64-linux"⟩ =
      .error (.unbuildable ⟨"x86_64-linux"⟩ "steam" "build step failed (marked broken)") := by
  intro fleet fleet'
  obtain ⟨hsame, hcatalog, hsheets⟩ :=
    declared_platforms_separate ⟨"aarch64-linux"⟩ gameCatalog brokenGame [games] [unpatched]
  have hbroken : gameCatalog.packages.EqAside (fun e => e.availableOn ⟨"aarch64-linux"⟩ = false) brokenGame.packages := by
    refine NameMap.eqAside_insert (by decide) fun old hold => ?_
    obtain rfl : { version := "1.0", platforms := [⟨"x86_64-linux"⟩] } = old := Option.some.inj hold
    decide
  have hdropped : games.packages.EqAside (fun o => o.appliesOn ⟨"aarch64-linux"⟩ = false) unpatched.packages := by
    refine NameMap.eqAside_erase fun old hold => ?_
    obtain rfl : { inherits := true, patches := ["steam.patch"], platforms := [⟨"x86_64-linux"⟩] } = old :=
      Option.some.inj hold
    decide
  obtain ⟨-, -, hhosts⟩ :=
    hsame (hcatalog hbroken) (hsheets (.cons ⟨rfl, hdropped⟩ .nil)) fleet fleet' rfl rfl
  exact ⟨rfl, rfl, hhosts rfl "lightning" lightning rfl rfl rfl errands [.list], by decide +kernel, by decide +kernel, rfl⟩

end HostFleet
