import HostFleet.FileSystem.Tree
import HostFleet.Fleet.Definition
import HostFleet.Proofs.Fleet.History
import HostFleet.Proofs.Package.Build
import HostFleet.Proofs.Package.Demand

/-!
# What a loaded fleet may fail with

Overrides are checked when their file is loaded and evaluated when a package set is built. The check passes exactly those
overrides that are more than a blank and, if they are another name, nothing else. A reachable entry without a version would
have to be blank, so no build of a loaded fleet gives up for itself. What is left are the faults of overlays that do not fit
together, a cycle or a missing package, and those of the catalog.
-/

namespace HostFleet

open Overlay

/-! ### Checks -/

theorem Override.check_eq_ok_iff (o : Override) :
    o.check = .ok () ↔ (o.target.isSome = true → o.isBare = true) ∧ ¬ o.IsBlank := by
  unfold check IsBlank
  cases o.target with
  | some target => simp
  | none => cases o.inherits <;> cases o.version <;> simp

/-- Every override of the sheet passes its check. -/
def Sheet.Checked (sheet : Sheet) : Prop := ∀ package o, sheet.packages.get? package = some o → o.check = .ok ()

theorem OverlayFile.check_eq_ok_iff (f : OverlayFile) (path : Path) (name : String) :
    f.check path = .ok () ↔ (Sheet.mk name f.packages).Checked := by
  rw [check, forM_eq_ok_iff]
  constructor
  · intro h package o hget
    exact mapError_eq_ok_iff.1 (h (package, o) ((f.packages.mem_entries_iff package o).2 hget))
  · intro h e he
    exact mapError_eq_ok_iff.2 (h e.1 e.2 ((f.packages.mem_entries_iff e.1 e.2).1 he))

/-! ### Loading -/

namespace OverlayFile

variable {fs : FileSystem}

theorem exists_sheet_of_load {path : Path} {overlay : Overlay Artifact} (h : (load fs path).outcome = .ok overlay) :
    ∃ sheet : Sheet, sheet.Checked ∧ overlay = sheet.overlay := by
  simp only [load, Logged.outcome_bind, bind_eq_ok_iff] at h
  obtain ⟨file, -, name, -, _, hcheck, _, -, hoverlay⟩ := h
  exact ⟨⟨name, file.packages⟩, (file.check_eq_ok_iff path name).1 hcheck, (Except.ok.inj hoverlay).symm⟩

theorem exists_sheets_of_loadAll {root : Path} {paths : List Path} {overlays : List (Overlay Artifact)}
    (h : (loadAll fs root paths).outcome = .ok overlays) :
    ∃ sheets : List Sheet, (∀ sheet ∈ sheets, sheet.Checked) ∧ overlays = sheets.map Sheet.overlay := by
  rw [loadAll, Logged.outcome_mapM, mapM_eq_ok_iff] at h
  induction h with
  | nil => exact ⟨[], by simp, rfl⟩
  | cons hfirst _ ih =>
    obtain ⟨sheet, hsheet, rfl⟩ := exists_sheet_of_load hfirst
    obtain ⟨sheets, hsheets, rfl⟩ := ih
    exact ⟨sheet :: sheets, List.forall_mem_cons.2 ⟨hsheet, hsheets⟩, rfl⟩

end OverlayFile

namespace Definition

variable {fs : FileSystem} {root : Path} {d : Definition}

theorem load_eq_ok_iff :
    (load fs root).outcome = .ok d ↔ d.root = root ∧
      Document.optional Settings.shape.ofTable fs (root.join Settings.fileName) = .ok d.settings ∧
      (Registry.discover fs root (root.join d.settings.hostsDir)).outcome = .ok d.registry ∧
      Document.optional Catalog.shape.ofTable fs (root.join d.settings.catalog) = .ok d.catalog ∧
      (OverlayFile.loadAll fs root d.settings.overlays).outcome = .ok d.overlays := by
  simp only [load, Logged.outcome_bind, bind_eq_ok_iff, Logged.of, Logged.mapFailure, mapError_eq_ok_iff]
  constructor
  · intro h
    obtain ⟨settings, hsettings, registry, hregistry, catalog, hcatalog, overlays, hoverlays, hd⟩ := h
    obtain rfl := Except.ok.inj hd
    exact ⟨rfl, hsettings, hregistry, hcatalog, hoverlays⟩
  · intro h
    obtain ⟨rfl, hsettings, hregistry, hcatalog, hoverlays⟩ := h
    exact ⟨d.settings, hsettings, d.registry, hregistry, d.catalog, hcatalog, d.overlays, hoverlays, rfl⟩

def supply (d : Definition) : Supply := ⟨d.catalog.source, d.overlays⟩

theorem exists_declared_of_load (h : (load fs root).outcome = .ok d) :
    ∃ sheets : List Sheet, (∀ sheet ∈ sheets, sheet.Checked) ∧ d.supply = .declared d.catalog sheets := by
  obtain ⟨-, -, -, -, hoverlays⟩ := load_eq_ok_iff.1 h
  obtain ⟨sheets, hsheets, heq⟩ := OverlayFile.exists_sheets_of_loadAll hoverlays
  exact ⟨sheets, hsheets, by rw [supply, heq, Supply.declared]⟩

theorem fleet_eq_ok {fleet : Fleet} (h : d.fleet = .ok fleet) : fleet = ⟨d.settings, d.registry, d.supply⟩ := by
  obtain ⟨_, -, hfleet⟩ := bind_eq_ok_iff.1 h
  exact (Except.ok.inj hfleet).symm

end Definition

/-! ### Faults -/

/-- A fault on a platform that checked overrides do not rule out: a broken package that the catalog has there, a cycle, or
a missing package. -/
def BuildFault.Remains (catalog : Catalog) (platform : Platform) (fault : BuildFault) : Prop :=
  (∃ package entry, catalog.packages.get? package = some entry ∧ entry.availableOn platform = true ∧
    entry.broken = true ∧ fault = .unbuildable platform package Catalog.brokenReason) ∨
  (∃ path, fault = .overlay platform (.cycle path)) ∨
  ∃ package requestedBy, fault = .overlay platform (.missing package requestedBy)

theorem Declaration.not_unversioned {d : Declaration} (h : ∀ sheet ∈ d.sheets, sheet.Checked) : ¬ d.Unversioned := by
  intro hblank
  obtain ⟨key, o, -, hentry, hblank⟩ := hblank
  rw [Declaration.override?] at hentry
  cases hsheet : d.sheets[key.layer]? with
  | none => simp [hsheet] at hentry
  | some sheet =>
    simp only [hsheet, Sheet.override?, Option.filter_eq_some_iff] at hentry
    have hcheck := h sheet (List.mem_of_getElem? hsheet) key.name o hentry.1
    exact ((o.check_eq_ok_iff).1 hcheck).2 hblank

theorem Supply.remains_of_build {catalog : Catalog} {sheets : List Sheet} (hsheets : ∀ sheet ∈ sheets, sheet.Checked)
    {platform : Platform} {fault : BuildFault} (h : (declared catalog sheets).build platform = .error fault) :
    fault.Remains catalog platform := by
  rcases build_eq_error_iff.1 h with hsource | ⟨base, inner, -, happly, rfl⟩
  · exact .inl (Catalog.exists_broken_of_source hsource)
  · let d : Declaration := ⟨platform, base, sheets⟩
    have hdefect : d.Defect inner := Declaration.defect_of_solveAnew (d.apply_sheets.symm.trans happly)
    cases inner with
    | cycle path => exact .inr (.inl ⟨path, rfl⟩)
    | missing package requestedBy => exact .inr (.inr ⟨package, requestedBy, rfl⟩)
    | evaluation overlay package reason => exact absurd hdefect (Declaration.not_unversioned hsheets)

/-- What is checked when a fleet is loaded is not met again when it is built. -/
theorem loaded_fleet_never_gives_up {fs : FileSystem} {root : Path} {d : Definition}
    (h : (Definition.load fs root).outcome = .ok d) :
    (∀ platform other overlay package reason,
      d.supply.build platform ≠ .error (.overlay other (.evaluation overlay package reason))) ∧
    (∀ platform fault, d.supply.build platform = .error fault → fault.Remains d.catalog platform) ∧
    ∀ fleet, d.fleet = .ok fleet → ∀ past name host, fleet.registry.get? name = some host →
      ∀ e, ((fleet.resolveHost name).run (fleet.after past)).1 = .error e →
        ∃ fault, e = .build fault ∧ fault.Remains d.catalog (host.home d.settings) := by
  obtain ⟨sheets, hsheets, hsupply⟩ := Definition.exists_declared_of_load h
  have hremains : ∀ platform fault, d.supply.build platform = .error fault → fault.Remains d.catalog platform := by
    intro platform fault hfault
    rw [hsupply] at hfault
    exact Supply.remains_of_build hsheets hfault
  refine ⟨fun platform other overlay package reason hfault => ?_, hremains, fun fleet hfleet past name host hhost e he => ?_⟩
  · have hkind := hremains platform _ hfault
    simp [BuildFault.Remains] at hkind
  · obtain rfl := Definition.fleet_eq_ok hfleet
    rw [Fleet.resolveHost_after _ past hhost, Host.configured] at he
    cases hbuild : d.supply.build (host.home d.settings) with
    | ok set => simp [hbuild] at he
    | error fault => exact ⟨fault, by simpa [hbuild, eq_comm] using he, hremains _ _ hbuild⟩

/-- Files of a fleet with one host and an overlay of two packages that need each other. -/
def knottedFiles : FileTree :=
  let text (content : String) := FileTree.file (.ok (Utf8.encode content))
  .dir none
    [(Utf8.encode "fleet.toml", text "overlays = ['knot.toml']"),
      (Utf8.encode "hosts", .dir none [(Utf8.encode "web", .dir none [(Utf8.encode "h.nix", text "")])]),
      (Utf8.encode "knot.toml", text "[packages.a]\nversion = '1'\ninputs = ['b']\n[packages.b]\nalias = 'a'")]

theorem knotted_fleet_never_gives_up :
    ∃ d fleet host, (Definition.load knottedFiles.lexical "/").outcome = .ok d ∧
      (∀ platform other overlay package reason,
        d.supply.build platform ≠ .error (.overlay other (.evaluation overlay package reason))) ∧
      d.fleet = .ok fleet ∧ fleet.registry.get? "h" = some host ∧
      ((fleet.resolveHost "h").run {}).1 =
        .error (.build (.overlay (host.home d.settings) (.cycle ["knot:a", "knot:b", "knot:a"]))) ∧
      BuildFault.Remains d.catalog (host.home d.settings)
        (.overlay (host.home d.settings) (.cycle ["knot:a", "knot:b", "knot:a"])) := by
  have hloaded : ((Definition.load knottedFiles.lexical "/").outcome.toOption.bind fun d =>
      d.fleet.toOption.bind fun fleet => (fleet.registry.get? "h").map fun host =>
        (host.home d.settings, (d.supply.build (host.home d.settings)).map PackageSet.names)) =
      some (⟨"x86_64-linux"⟩, .error (.overlay ⟨"x86_64-linux"⟩ (.cycle ["knot:a", "knot:b", "knot:a"]))) := by
    decide +kernel
  obtain ⟨d, hd, hfound⟩ := Option.bind_eq_some_iff.1 hloaded
  obtain ⟨fleet, hfleet, hlisted⟩ := Option.bind_eq_some_iff.1 hfound
  obtain ⟨host, hhost, hpair⟩ := Option.map_eq_some_iff.1 hlisted
  obtain ⟨hhome, hbuild⟩ := Prod.mk.inj hpair
  replace hd := toOption_eq_some_iff.1 hd
  replace hfleet := toOption_eq_some_iff.1 hfleet
  have hresolved : ((fleet.resolveHost "h").run {}).1 =
      .error (.build (.overlay (host.home d.settings) (.cycle ["knot:a", "knot:b", "knot:a"]))) := by
    obtain rfl := Definition.fleet_eq_ok hfleet
    refine (Fleet.resolveHost_after _ [] hhost).trans (Host.configured_of_error ?_)
    rw [hhome] at hbuild ⊢
    exact map_eq_error_iff.1 hbuild
  obtain ⟨hnever, -, hhosts⟩ := loaded_fleet_never_gives_up hd
  obtain ⟨fault, hfault, hremains⟩ := hhosts fleet hfleet [] "h" host hhost _ hresolved
  obtain rfl := FleetFault.build.inj hfault
  exact ⟨d, fleet, host, hd, hnever, hfleet, hhost, hresolved, hremains⟩

end HostFleet
