import HostFleet.Proofs.Composition
import HostFleet.Proofs.Registry.Reference

/-!
# Warnings about repeated imports

A host imports the modules that all hosts share and then its own, and each module that it imports more than once should be
warned about once. The warnings of different hosts differ in their places, so what the warnings say is settled host by host,
by the report on the imports of each. They follow the names of the hosts, and a host is warned about a module once for each
time that it imports the module again.
-/

namespace HostFleet

namespace Definition

open HostFleet.Composition

/-- A warning belongs before another: its host has the smaller name, or the host is the same and the second import of its
module comes first. -/
def WarnedBefore (d : Definition) (w w' : Warning) : Prop :=
  ∃ host ∈ d.registry.toList, ∃ host' ∈ d.registry.toList, ∃ m m',
    w = repeatWarning host m ∧ w' = repeatWarning host' m' ∧
      (host.name < host'.name ∨ host = host' ∧ SecondBefore (d.imports host) m m')

/-- Each host is warned once about each module that it imports more than once, in order. -/
def WarnedOnce (d : Definition) (warnings : List Warning) : Prop :=
  EachOnce (fun w => ∃ host ∈ d.registry.toList, ∃ m, 2 ≤ (d.imports host).count m ∧ w = repeatWarning host m)
    d.WarnedBefore warnings

theorem repeatWarning_injective (host : Host) : Function.Injective (repeatWarning host) := by
  intro m m' h
  exact (Warning.mk.inj h).2.1

variable {d : Definition}

theorem eq_of_repeatWarning_eq {host other : Host} (hhost : host ∈ d.registry.toList) (hother : other ∈ d.registry.toList)
    {m m' : ModuleRef} (h : repeatWarning host m = repeatWarning other m') : host = other :=
  List.inj_on_of_nodup_map d.registry.nodup_map_name_toList hhost hother (hostPlace_injective (Warning.mk.inj h).1)

theorem pairwise_disjoint_warnings (d : Definition) (modules : Host → List ModuleRef) :
    d.registry.toList.Pairwise fun host other =>
      ((modules host).map (repeatWarning host)).Disjoint ((modules other).map (repeatWarning other)) := by
  refine d.registry.pairwise_name_toList.imp ?_
  intro host other hlt w hw hw'
  obtain ⟨m, -, rfl⟩ := List.mem_map.1 hw
  obtain ⟨m', -, heq⟩ := List.mem_map.1 hw'
  exact String.lt_irrefl other.name (hostPlace_injective (Warning.mk.inj heq).1 ▸ hlt)

theorem count_repeatedModules {host : Host} (hhost : host ∈ d.registry.toList) (m : ModuleRef) :
    d.repeatedModules.count (repeatWarning host m) = (d.imports host).count m - 1 := by
  have hown : ∀ other ∈ d.registry.toList,
      repeatWarning host m ∈ (repeated (d.imports other)).map (repeatWarning other) → other = host := by
    intro other hother hmem
    obtain ⟨m', -, heq⟩ := List.mem_map.1 hmem
    exact eq_of_repeatWarning_eq hother hhost heq
  rw [repeatedModules, List.count_flatMap_of_unique (List.Nodup.of_map _ d.registry.nodup_map_name_toList) hhost hown,
    List.count_map_of_injective _ _ (repeatWarning_injective host), count_repeated]

theorem eraseDups_repeatedModules (d : Definition) : d.repeatedModules.eraseDups =
    d.registry.toList.flatMap fun host => (repeated (d.imports host)).eraseDups.map (repeatWarning host) := by
  rw [repeatedModules, List.eraseDups_flatMap (pairwise_disjoint_warnings d _)]
  simp only [List.eraseDups_map (repeatWarning_injective _)]

theorem nodup_repeatedModules_iff :
    d.repeatedModules.Nodup ↔ ∀ host ∈ d.registry.toList, ∀ m, (d.imports host).count m ≤ 2 := by
  rw [repeatedModules, List.nodup_flatMap, and_iff_left (pairwise_disjoint_warnings d _)]
  simp only [List.nodup_map_iff (repeatWarning_injective _), nodup_repeated_iff]

theorem warnedOnce_eraseDups (d : Definition) : d.WarnedOnce d.repeatedModules.eraseDups := by
  refine ⟨fun w => ?_, ?_, ?_⟩
  · rw [List.mem_eraseDups, repeatedModules]
    simp only [List.mem_flatMap, List.mem_map, mem_repeated_iff, eq_comm]
  · rw [eraseDups_repeatedModules, List.nodup_flatMap]
    refine ⟨fun host _ => ?_, pairwise_disjoint_warnings d _⟩
    exact (reportedOnce_eraseDups (d.imports host)).once.map (repeatWarning_injective host)
  · rw [eraseDups_repeatedModules, List.pairwise_flatMap]
    constructor
    · intro host hhost
      refine List.pairwise_map.2 ((reportedOnce_eraseDups (d.imports host)).ordered.imp ?_)
      intro m m' hbefore
      exact ⟨host, hhost, host, hhost, m, m', rfl, rfl, .inr ⟨rfl, hbefore⟩⟩
    · refine d.registry.pairwise_name_toList.imp_of_mem ?_
      intro host other hhost hother hlt w hw w' hw'
      obtain ⟨m, -, rfl⟩ := List.mem_map.1 hw
      obtain ⟨m', -, rfl⟩ := List.mem_map.1 hw'
      exact ⟨host, hhost, other, hother, m, m', rfl, rfl, .inl hlt⟩

/-- The report on a module list names every occurrence of a module but the first, so each module as often as it occurs less
one. But for its own repeats it names what occurs more than once, each once, in the order of second occurrences, and it does
so as it stands exactly if nothing occurs more than twice. The warnings are such reports on the imports of each host, in the
order of the names of the hosts. -/
theorem repeats_reported_per_occurrence (modules : List ModuleRef) (d : Definition) :
    (repeated modules = occurrences (0 < ·) modules ∧
      (∀ m, m ∈ repeated modules ↔ 2 ≤ modules.count m) ∧
      (∀ m, (repeated modules).count m = modules.count m - 1) ∧
      ReportedOnce modules (repeated modules).eraseDups ∧
      (ReportedOnce modules (repeated modules) ↔ ∀ m, modules.count m ≤ 2)) ∧
    (d.registry.toList.Pairwise fun host other => host.name < other.name) ∧
    (d.repeatedModules = d.registry.toList.flatMap fun host =>
      (occurrences (0 < ·) (d.imports host)).map (repeatWarning host)) ∧
    (∀ host ∈ d.registry.toList, ∀ m,
      d.repeatedModules.count (repeatWarning host m) = (d.imports host).count m - 1) ∧
    d.WarnedOnce d.repeatedModules.eraseDups ∧
    (d.WarnedOnce d.repeatedModules ↔ ∀ host ∈ d.registry.toList, ∀ m, (d.imports host).count m ≤ 2) := by
  refine ⟨⟨repeated_eq_occurrences modules, fun m => mem_repeated_iff, count_repeated modules,
    reportedOnce_eraseDups modules, reportedOnce_repeated_iff modules⟩, d.registry.pairwise_name_toList, ?_,
    fun host hhost m => count_repeatedModules hhost m, warnedOnce_eraseDups d,
    (warnedOnce_eraseDups d).iff_nodup.trans nodup_repeatedModules_iff⟩
  simp only [repeatedModules, repeated_eq_occurrences]

/-- A host that imports a shared module again and names one of its own twice. -/
def doubled : Host := { name := "guanine", group := "nucleus", modules := ["kde", "base", "kde"] }

/-- A host that imports a shared module twice again. -/
def tripled : Host := { name := "adenine", group := "nucleus", modules := ["base", "ssh", "base"] }

def sharing (hosts : List Host) : Definition where
  root := ⟨[]⟩
  settings := { commonModules := ["base", "ssh"] }
  registry := (Registry.ofHosts hosts).toOption.getD {}
  catalog := {}
  overlays := []

theorem sharing_reported_per_occurrence :
    ReportedOnce ["base", "ssh", "kde", "base", "kde"] ["base", "kde"] ∧
    (sharing [doubled]).WarnedOnce [repeatWarning doubled "base", repeatWarning doubled "kde"] ∧
    tripled ∈ (sharing [doubled, tripled]).registry.toList ∧
    (sharing [doubled, tripled]).repeatedModules.count (repeatWarning tripled "base") = 2 := by
  obtain ⟨⟨-, -, -, -, hreported⟩, -, -, -, -, hwarned⟩ :=
    repeats_reported_per_occurrence ["base", "ssh", "kde", "base", "kde"] (sharing [doubled])
  obtain ⟨-, -, -, hcount, -⟩ := repeats_reported_per_occurrence [] (sharing [doubled, tripled])
  have hdoubled : ∀ host ∈ (sharing [doubled]).registry.toList, (repeated ((sharing [doubled]).imports host)).Nodup := by
    decide +kernel
  have htripled : tripled ∈ (sharing [doubled, tripled]).registry.toList := by decide +kernel
  refine ⟨hreported.2 (nodup_repeated_iff.1 (by decide)), ?_, htripled, ?_⟩
  · exact hwarned.2 fun host hhost => nodup_repeated_iff.1 (hdoubled host hhost)
  · rw [hcount tripled htripled "base"]
    decide +kernel

theorem tripled_reported_twice :
    ¬ ReportedOnce (compose ["base"] ["base", "base"]) (repeated (compose ["base"] ["base", "base"])) ∧
      ¬ (sharing [tripled]).WarnedOnce (sharing [tripled]).repeatedModules :=
  ⟨fun h => absurd h.once (by decide), fun h => absurd h.once (by decide +kernel)⟩

end Definition

end HostFleet
