import HostFleet.Package.Catalog
import HostFleet.Proofs.Fleet.Call

/-!
# Resolution, whatever happened before

Neither the calls that came before nor the other hosts of a fleet can be told from what a host resolves to, and a platform
that fails fails its own hosts only.
-/

namespace HostFleet

namespace Fleet

theorem resolveHost_after (fleet : Fleet) (past : List Call) {name : String} {host : Host}
    (h : fleet.registry.get? name = some host) :
    ((fleet.resolveHost name).run (fleet.after past)).1 = host.configured fleet.settings fleet.supply :=
  run_after (serves_resolveHost h) past

theorem resolveAll_after (fleet : Fleet) (past : List Call) :
    (fleet.resolveAll.run (fleet.after past)).1 =
      fleet.registry.toList.map fun host => (host.name, host.configured fleet.settings fleet.supply) :=
  run_after fleet.serves_resolveAll past

def withHosts (fleet : Fleet) (registry : Registry) : Fleet := { fleet with registry }

end Fleet

/-- Resolution does not depend on what was resolved before, and failures stay with their platform. After every history of
calls, a host resolves to what it resolves to on a fresh run; a name without a host is refused and leaves the run as it is;
all hosts together are each host by itself, once; a platform that fails gives its fault to each of its hosts; hosts that are
absent make no difference to the others; and every platform of a host that was resolved was built once. -/
theorem fleet_resolution_history_independent (fleet : Fleet) (past : List Fleet.Call) :
    (∀ name host, fleet.registry.get? name = some host →
      ((fleet.resolveHost name).run (fleet.after past)).1 = ((fleet.resolveHost name).run {}).1 ∧
      ((fleet.resolveHost name).run {}).1 = host.configured fleet.settings fleet.supply) ∧
    (∀ name, fleet.registry.get? name = none →
      (fleet.resolveHost name).run (fleet.after past) = (.error (.unknownHost name), fleet.after past)) ∧
    ((fleet.resolveAll.run (fleet.after past)).1 = fleet.registry.hosts.names.map fun name =>
      (name, ((fleet.resolveHost name).run (fleet.after past)).1)) ∧
    fleet.registry.hosts.names.Nodup ∧
    (∀ platform fault, fleet.supply.build platform = .error fault →
      ∀ host ∈ fleet.registry.toList, host.home fleet.settings = platform →
        (host.name, .error (.build fault)) ∈ (fleet.resolveAll.run (fleet.after past)).1) ∧
    (∀ fewer : Registry, (∀ host ∈ fewer.toList, host ∈ fleet.registry.toList) → ∀ past',
      ((fleet.withHosts fewer).resolveAll.run ((fleet.withHosts fewer).after past')).1 =
        fewer.toList.map fun host => (host.name, ((fleet.resolveHost host.name).run (fleet.after past)).1)) ∧
    (fleet.after past).builds = (past.flatMap (Fleet.Call.asks fleet)).toFinset.card ∧
    ∀ rest, fleet.after (past ++ .list :: rest) = fleet.after (past ++ rest) := by
  have hone : ∀ host ∈ fleet.registry.toList,
      ((fleet.resolveHost host.name).run (fleet.after past)).1 = host.configured fleet.settings fleet.supply :=
    fun host hhost => fleet.resolveHost_after past ((fleet.registry.mem_toList_iff host).1 hhost)
  refine ⟨fun name host hget => ?_, fun name hget => Fleet.run_resolveHost_of_none hget _, ?_,
    fleet.registry.hosts.nodup_names, fun platform fault hfault host hhost hhome => ?_, fun fewer hfewer past' => ?_,
    (fleet.records_after past).builds, fun rest => ?_⟩
  · have hfresh : ((fleet.resolveHost name).run {}).1 = host.configured fleet.settings fleet.supply :=
      fleet.resolveHost_after [] hget
    exact ⟨(fleet.resolveHost_after past hget).trans hfresh.symm, hfresh⟩
  · rw [fleet.resolveAll_after, ← fleet.registry.map_name_toList, List.map_map]
    refine List.map_congr_left fun host hhost => ?_
    rw [Function.comp_apply, hone host hhost]
  · have hfailed : host.configured fleet.settings fleet.supply = .error (.build fault) :=
      Host.configured_of_error (hhome ▸ hfault)
    rw [fleet.resolveAll_after, ← hfailed]
    exact List.mem_map_of_mem hhost
  · rw [Fleet.resolveAll_after]
    refine List.map_congr_left fun host hhost => ?_
    rw [hone host (hfewer host hhost)]
    rfl
  · rw [Fleet.after, Fleet.after, Run.after, Run.after, List.foldl_append, List.foldl_append]
    rfl

/-- A host on the default platform. -/
def adenine : Host := { name := "adenine", group := "nucleus", modules := ["nucleus.nix"] }

/-- A host on another platform. -/
def lightning : Host := { name := "lightning", group := "desktops", platform := some ⟨"aarch64-linux"⟩ }

/-- A fleet whose second platform cannot be built, as one of its packages is broken. -/
def halfBroken : Fleet where
  settings := {}
  registry := (Registry.ofHosts [{ lightning with name := "overheat" }, adenine, lightning]).toOption.getD {}
  supply := ⟨Catalog.source ⟨.ofList [("hello", { version := "2.12" }),
    ("firefox", { version := "130", platforms := [⟨"aarch64-linux"⟩], broken := true })]⟩, []⟩

/-- The hosts that are left without those that fail. -/
def soundHosts : Registry := (Registry.ofHosts [adenine]).toOption.getD {}

/-- Calls that meet the fault first and ask for a host that does not exist. -/
def errands : List Fleet.Call := [.host "overheat", .list, .host "ghost", .all, .host "adenine"]

theorem halfBroken_resolution_history_independent :
    halfBroken.registry.get? "adenine" = some adenine ∧ halfBroken.registry.get? "ghost" = none ∧
    lightning ∈ halfBroken.registry.toList ∧ (∀ host ∈ soundHosts.toList, host ∈ halfBroken.registry.toList) ∧
    ((halfBroken.resolveHost "adenine").run (halfBroken.after errands)).1.toOption.map (·.packages.names) =
      some ["hello"] ∧
    (halfBroken.resolveHost "ghost").run (halfBroken.after errands) =
      (.error (.unknownHost "ghost"), halfBroken.after errands) ∧
    ("lightning", .error (.build (.unbuildable ⟨"aarch64-linux"⟩ "firefox" "build step failed (marked broken)"))) ∈
      (halfBroken.resolveAll.run (halfBroken.after errands)).1 ∧
    ((halfBroken.withHosts soundHosts).resolveAll.run ((halfBroken.withHosts soundHosts).after [])).1 =
      [("adenine", ((halfBroken.resolveHost "adenine").run (halfBroken.after errands)).1)] ∧
    (halfBroken.after errands).builds = 2 := by
  obtain ⟨hhost, hghost, -, -, hfault, hfewer, hbuilds, -⟩ := fleet_resolution_history_independent halfBroken errands
  have hlist : halfBroken.registry.toList = [adenine, lightning, { lightning with name := "overheat" }] := rfl
  have hmember : lightning ∈ halfBroken.registry.toList := by simp [hlist]
  have hsound : ∀ host ∈ soundHosts.toList, host ∈ halfBroken.registry.toList := by
    have honly : soundHosts.toList = [adenine] := rfl
    simp [honly, hlist]
  refine ⟨rfl, rfl, hmember, hsound, ?_, hghost "ghost" rfl, hfault ⟨"aarch64-linux"⟩ _ rfl lightning hmember rfl,
    hfewer soundHosts hsound [], hbuilds.trans (by decide +kernel)⟩
  obtain ⟨hsame, hfresh⟩ := hhost "adenine" adenine rfl
  rw [hsame, hfresh]
  decide +kernel

end HostFleet
