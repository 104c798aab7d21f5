import HostFleet.Proofs.Fleet.History

/-!
# Platforms that are known

The platforms of hosts are read in three places: from the hosts themselves, in the table of exceptions that is checked when a
fleet is made, and by name when a host is resolved. All three say the same, so one check is enough for every later look-up.
-/

namespace HostFleet

/-- A host gives itself a platform that is not among the known ones. -/
def Host.Stray (host : Host) (known : List Platform) : Prop := ∃ platform, host.platform = some platform ∧ platform ∉ known

namespace Assignment

variable {a : Assignment} {known : List Platform}

theorem check_eq_ok_iff : a.check known = .ok () ↔
    known = [] ∨ a.default ∈ known ∧ ∀ name platform, a.exceptions.get? name = some platform → platform ∈ known := by
  unfold check
  by_cases hnone : known = []
  · simp [hnone]
  · rw [if_neg hnone]
    simp only [hnone, false_or, ← NameMap.mem_entries_iff]
    constructor
    · intro h
      cases hfind : ((defaultHost, a.default) :: a.exceptions.entries).find? (fun e => e.2 ∉ known) with
      | some e => simp only [hfind, reduceCtorEq] at h
      | none => simpa using hfind
    · intro h
      have hfind : ((defaultHost, a.default) :: a.exceptions.entries).find? (fun e => e.2 ∉ known) = none := by
        simpa using h
      rw [hfind]

/-- The default is blamed before any host, and a host before those with larger names. -/
theorem blamed_of_check {fault : PlatformFault} (h : a.check known = .error fault) :
    fault.known = known ∧ fault.platform ∉ known ∧
    (a.default ∉ known → fault.host = defaultHost ∧ fault.platform = a.default) ∧
    (a.default ∈ known → a.exceptions.get? fault.host = some fault.platform ∧
      ∀ name platform, a.exceptions.get? name = some platform → platform ∉ known → fault.host ≤ name) := by
  unfold check at h
  split at h
  · simp at h
  · cases hfind : ((defaultHost, a.default) :: a.exceptions.entries).find? (fun e => e.2 ∉ known) with
    | none => simp only [hfind, reduceCtorEq] at h
    | some e =>
      simp only [hfind, Except.error.injEq] at h
      subst h
      have hout : e.2 ∉ known := by simpa using List.find?_some hfind
      refine ⟨rfl, hout, fun hdefault => ?_, fun hdefault => ?_⟩
      · rw [List.find?_cons_of_pos (by simpa using hdefault), Option.some.injEq] at hfind
        subst hfind
        exact ⟨rfl, rfl⟩
      · rw [List.find?_cons_of_neg (by simpa using hdefault)] at hfind
        obtain ⟨-, before, after, hentries, hbefore⟩ := List.find?_eq_some_iff_append.1 hfind
        have hmem : e ∈ a.exceptions.entries := by simp [hentries]
        refine ⟨(NameMap.mem_entries_iff _ _ _).1 hmem, fun name platform hget hplatform => ?_⟩
        have hentry := (NameMap.mem_entries_iff _ _ _).2 hget
        have hsorted := a.exceptions.sorted
        rw [hentries] at hentry hsorted
        rcases List.mem_append.1 hentry with hearly | hlate
        · exact absurd (hbefore _ hearly) (by simpa using hplatform)
        · rcases List.mem_cons.1 hlate with rfl | hlate
          · exact String.le_refl _
          · have hcut := (List.pairwise_append.1 hsorted).2.1
            have hlt := (List.pairwise_cons.1 hcut).1 _ hlate
            exact String.not_lt.1 fun hgt => String.lt_irrefl _ (String.lt_trans hlt hgt)

end Assignment

namespace Fleet

variable {settings : Settings} {registry : Registry} {source : PackageSource} {overlays : List (Overlay Artifact)}

theorem new_eq_ok_iff {fleet : Fleet} : new settings registry source overlays = .ok fleet ↔
    (assignment settings registry).check settings.platforms = .ok () ∧ fleet = ⟨settings, registry, ⟨source, overlays⟩⟩ := by
  rw [new, bind_eq_ok_iff]
  constructor
  · intro h
    obtain ⟨_, hcheck, hfleet⟩ := h
    exact ⟨hcheck, (Except.ok.inj hfleet).symm⟩
  · intro h
    exact ⟨(), h.1, by rw [h.2]⟩

theorem new_eq_error_iff {fault : PlatformFault} : new settings registry source overlays = .error fault ↔
    (assignment settings registry).check settings.platforms = .error fault := by
  rw [new, bind_eq_error_iff]
  simp

theorem get?_exceptions_assignment {name : String} {platform : Platform} :
    (assignment settings registry).exceptions.get? name = some platform ↔
      ∃ host ∈ registry.toList, host.name = name ∧ host.platform = some platform := by
  show registry.exceptions.get? name = some platform ↔ _
  rw [Registry.get?_exceptions, Option.bind_eq_some_iff]
  constructor
  · intro h
    obtain ⟨host, hget, hown⟩ := h
    exact ⟨host, registry.mem_toList_of_get? hget, registry.named hget, hown⟩
  · intro h
    obtain ⟨host, hmem, rfl, hown⟩ := h
    exact ⟨host, (registry.mem_toList_iff host).1 hmem, hown⟩

theorem exceptions_known_iff {known : List Platform} :
    (∀ name platform, (assignment settings registry).exceptions.get? name = some platform → platform ∈ known) ↔
      ∀ host ∈ registry.toList, ¬ host.Stray known := by
  simp only [get?_exceptions_assignment, Host.Stray]
  constructor
  · intro h host hhost hstray
    obtain ⟨platform, hown, hout⟩ := hstray
    exact hout (h host.name platform ⟨host, hhost, rfl, hown⟩)
  · intro h name platform hentry
    obtain ⟨host, hhost, -, hown⟩ := hentry
    by_contra hout
    exact h host hhost ⟨platform, hown, hout⟩

/-- A look-up finds nothing but what was checked. -/
theorem platformOf_mem {fleet : Fleet} {known : List Platform} (hknown : known ≠ [])
    (h : (assignment fleet.settings fleet.registry).check known = .ok ()) (name : String) : fleet.platformOf name ∈ known := by
  obtain ⟨hdefault, hexceptions⟩ := (Assignment.check_eq_ok_iff.1 h).resolve_left hknown
  rw [platformOf, Assignment.platformOf]
  cases hget : (assignment fleet.settings fleet.registry).exceptions.get? name with
  | none => exact hdefault
  | some platform => exact hexceptions name platform hget

end Fleet

/-- A fleet is made exactly if no platforms are listed or all that are used are among them. Else the default is blamed if it is
not listed, and otherwise the host of the smallest name whose platform is not. In a fleet with a list every name resolves to
a platform of the list, and every host to its own platform or else the default. -/
theorem fleet_platforms_known (settings : Settings) (registry : Registry) (source : PackageSource)
    (overlays : List (Overlay Artifact)) :
    ((∃ fleet, Fleet.new settings registry source overlays = .ok fleet) ↔
      settings.platforms = [] ∨ settings.defaultPlatform ∈ settings.platforms ∧
        ∀ host ∈ registry.toList, ¬ host.Stray settings.platforms) ∧
    (∀ fault, Fleet.new settings registry source overlays = .error fault → fault.known = settings.platforms ∧
      (settings.defaultPlatform ∉ settings.platforms →
        fault.host = "<default>" ∧ fault.platform = settings.defaultPlatform) ∧
      (settings.defaultPlatform ∈ settings.platforms → ∃ host ∈ registry.toList, host.Stray settings.platforms ∧
        fault.host = host.name ∧ host.platform = some fault.platform ∧
        ∀ other ∈ registry.toList, other.Stray settings.platforms → host.name ≤ other.name)) ∧
    ∀ fleet, Fleet.new settings registry source overlays = .ok fleet →
      (settings.platforms ≠ [] → ∀ name, fleet.platformOf name ∈ settings.platforms) ∧
      ∀ name host, registry.get? name = some host → fleet.platformOf name = host.home settings := by
  refine ⟨?_, fun fault hfault => ?_, fun fleet hfleet => ?_⟩
  · simp only [Fleet.new_eq_ok_iff, exists_and_left, exists_eq, and_true, Assignment.check_eq_ok_iff,
      Fleet.exceptions_known_iff]
    rfl
  · obtain ⟨hknown, hout, hdefault, hhosts⟩ := Assignment.blamed_of_check (Fleet.new_eq_error_iff.1 hfault)
    refine ⟨hknown, hdefault, fun hmem => ?_⟩
    obtain ⟨hentry, hleast⟩ := hhosts hmem
    obtain ⟨host, hhost, hname, hown⟩ := Fleet.get?_exceptions_assignment.1 hentry
    refine ⟨host, hhost, ⟨_, hown, hout⟩, hname.symm, hown, fun other hother hstray => ?_⟩
    obtain ⟨platform, hplatform, hunknown⟩ := hstray
    rw [hname]
    exact hleast other.name platform (Fleet.get?_exceptions_assignment.2 ⟨other, hother, rfl, hplatform⟩) hunknown
  · obtain ⟨hcheck, rfl⟩ := Fleet.new_eq_ok_iff.1 hfleet
    refine ⟨fun hlisted name => Fleet.platformOf_mem hlisted hcheck name, fun name host hget => ?_⟩
    obtain rfl := registry.named hget
    exact Fleet.platformOf_eq (registry.mem_toList_of_get? hget)

/-- Hosts of the default platform, of one that may be listed, and two of others. -/
def mixedHosts : Registry :=
  (Registry.ofHosts [{ lightning with name := "surge", platform := some ⟨"mips-linux"⟩ }, lightning,
    { lightning with name := "flood", platform := some ⟨"riscv64-linux"⟩ }, adenine]).toOption.getD {}

/-- Settings that list the default platform and others. -/
def knowing (names : List String) : Settings := { platforms := ⟨"x86_64-linux"⟩ :: names.map Platform.mk }

theorem mixedHosts_platforms_known :
    (∃ fleet, Fleet.new (knowing ["aarch64-linux", "mips-linux", "riscv64-linux"]) mixedHosts (fun _ => .ok {}) [] = .ok fleet ∧
      fleet.platformOf "ghost" ∈ (knowing ["aarch64-linux", "mips-linux", "riscv64-linux"]).platforms ∧
      fleet.platformOf "lightning" = ⟨"aarch64-linux"⟩) ∧
    ∃ fault host, Fleet.new (knowing ["aarch64-linux"]) mixedHosts (fun _ => .ok {}) [] = .error fault ∧
      host ∈ mixedHosts.toList ∧ fault.host = host.name ∧ fault.host = "flood" ∧
      ∀ other ∈ mixedHosts.toList, other.Stray (knowing ["aarch64-linux"]).platforms → host.name ≤ other.name := by
  constructor
  · obtain ⟨-, -, hmade⟩ := fleet_platforms_known (knowing ["aarch64-linux", "mips-linux", "riscv64-linux"]) mixedHosts
      (fun _ => .ok {}) []
    obtain ⟨hlisted, hown⟩ := hmade _ rfl
    exact ⟨_, rfl, hlisted (by decide) "ghost", hown "lightning" lightning rfl⟩
  · obtain ⟨-, hblamed, -⟩ := fleet_platforms_known (knowing ["aarch64-linux"]) mixedHosts (fun _ => .ok {}) []
    obtain ⟨-, -, hhost⟩ := hblamed _ rfl
    obtain ⟨host, hmem, -, hname, -, hleast⟩ := hhost (by decide)
    exact ⟨_, host, rfl, hmem, hname, rfl, hleast⟩

end HostFleet
