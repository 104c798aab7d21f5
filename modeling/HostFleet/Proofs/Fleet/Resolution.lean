import HostFleet.Fleet.Resolution
import HostFleet.Proofs.Fleet.Run
import HostFleet.Proofs.Registry

/-!
# What a host resolves to

A host's configuration is a matter of the settings, of the host and of the supply alone: `Host.configured` writes it down
without a run. Resolving one host or all of them serves, in the sense of `Supply.Serves`.
-/

namespace HostFleet

namespace Host

/-- The platform that a host runs on: its own, or else the default one. -/
def home (host : Host) (settings : Settings) : Platform := host.platform.getD settings.defaultPlatform

def configured (host : Host) (settings : Settings) (supply : Supply) : Except FleetFault Configuration :=
  match supply.build (host.home settings) with
  | .error fault => .error (.build fault)
  | .ok packages => .ok {
      host := host.name
      group := host.group
      platform := host.home settings
      modules := settings.commonModules ++ host.modules
      deployment := {
        tags := [host.group]
        targetHost := settings.targetHost host.name
        targetUser := settings.targetUser
        allowLocalDeployment := settings.allowLocalDeployment }
      packages
      specialArgs := settings.specialArgs }

theorem configured_of_error {host : Host} {settings : Settings} {supply : Supply} {fault : BuildFault}
    (h : supply.build (host.home settings) = .error fault) : host.configured settings supply = .error (.build fault) := by
  rw [configured, h]

end Host

namespace Fleet

variable {fleet : Fleet}

/-! ### One host -/

theorem platformOf_eq {host : Host} (h : host ∈ fleet.registry.toList) :
    fleet.platformOf host.name = host.home fleet.settings := by
  rw [platformOf, Assignment.platformOf, assignment, Registry.get?_exceptions, (Registry.mem_toList_iff _ _).1 h]
  rfl

theorem configure_eq {host : Host} (h : host ∈ fleet.registry.toList) {packages : PackageSet}
    (hbuild : fleet.supply.build (host.home fleet.settings) = .ok packages) :
    .ok (fleet.configure host packages) = host.configured fleet.settings fleet.supply := by
  rw [Host.configured, hbuild, configure, platformOf_eq h]
  rfl

theorem serves_resolve {host : Host} (h : host ∈ fleet.registry.toList) :
    fleet.supply.Serves [host.home fleet.settings] (fleet.resolve host)
      (host.configured fleet.settings fleet.supply) := by
  have hget := fleet.supply.serves_get (host.home fleet.settings)
  rw [resolve, platformOf_eq h]
  cases hbuild : fleet.supply.build (host.home fleet.settings) with
  | error fault =>
    rw [hbuild] at hget
    rw [Host.configured_of_error hbuild]
    exact hget.bind (Supply.serves_pure _)
  | ok packages =>
    rw [hbuild] at hget
    rw [← configure_eq h hbuild]
    refine hget.bind ((Supply.serves_say ?_).bind (Supply.serves_pure _))
    exact Run.ne_building (.inl (by simp))

theorem serves_resolveHost {name : String} {host : Host} (h : fleet.registry.get? name = some host) :
    fleet.supply.Serves [host.home fleet.settings] (fleet.resolveHost name)
      (host.configured fleet.settings fleet.supply) := by
  rw [resolveHost, h]
  exact serves_resolve (fleet.registry.mem_toList_of_get? h)

theorem run_resolveHost_of_none {name : String} (h : fleet.registry.get? name = none) (run : Run) :
    (fleet.resolveHost name).run run = (.error (.unknownHost name), run) := by
  rw [resolveHost, h]
  rfl

/-! ### All hosts -/

theorem mem_platforms_iff (platform : Platform) :
    platform ∈ fleet.platforms ↔ platform ∈ fleet.registry.toList.map (Host.home · fleet.settings) := by
  have hname : ∀ name, name ∈ (NameMap.ofList
      (fleet.registry.toList.map fun h => ((fleet.platformOf h.name).name, ()))).names ↔
      ∃ host ∈ fleet.registry.toList, (host.home fleet.settings).name = name := by
    intro name
    rw [NameMap.mem_names_ofList, List.map_map, List.mem_map]
    refine exists_congr fun host => and_congr_right fun hhost => ?_
    rw [Function.comp_apply, platformOf_eq hhost]
  obtain ⟨text⟩ := platform
  simp only [platforms, List.mem_map, hname, Platform.mk.injEq, exists_eq_right]
  refine exists_congr fun host => and_congr_right fun _ => ?_
  cases host.home fleet.settings
  simp

theorem serves_resolveAll (fleet : Fleet) :
    fleet.supply.Serves (fleet.registry.toList.map (Host.home · fleet.settings)) fleet.resolveAll
      (fleet.registry.toList.map fun host => (host.name, host.configured fleet.settings fleet.supply)) := by
  have heach : ∀ host ∈ fleet.registry.toList, fleet.supply.Serves [host.home fleet.settings]
      (do return (host.name, ← fleet.resolve host)) (host.name, host.configured fleet.settings fleet.supply) :=
    fun host hhost => (serves_resolve hhost).map _
  have hhosts : fleet.supply.Serves _ (fleet.registry.toList.mapM fun host => do return (host.name, ← fleet.resolve host))
      (fleet.registry.toList.map fun host => (host.name, host.configured fleet.settings fleet.supply)) :=
    Supply.Serves.mapM heach
  have hwarm := fleet.supply.serves_warm fleet.platforms
  have hsay : fleet.supply.Serves [] (Run.say ⟨.debug, .resolution,
      "building package sets for " ++ toString fleet.platforms.length ++ " system(s)"⟩) () :=
    Supply.serves_say (Run.ne_building (.inl (by simp)))
  refine (hsay.bind (hwarm.bind hhosts)).congr fun platform => ?_
  simp [mem_platforms_iff, eq_comm]

end Fleet

end HostFleet
