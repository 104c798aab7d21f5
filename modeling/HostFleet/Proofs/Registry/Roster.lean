import HostFleet.Proofs.Registry

/-!
# Registries of a list of hosts

A list of hosts makes a registry exactly if no two hosts have one name. The two maps of the registry then say the same
about it: the hosts by name are the hosts of the list, and the groups are the list cut up by group, in its order. A list
with a repeated name fails at the first host whose name came before.
-/

namespace HostFleet.Registry

/-- The names of the hosts of a group, in the order of a list. -/
def membersIn (hosts : List Host) (group : String) : List String :=
  (hosts.filter fun host => host.group = group).map Host.name

/-- The two maps of a registry agree with a list of hosts, and so with each other. -/
structure Reflects (r : Registry) (hosts : List Host) : Prop where
  /-- Each host is stored under its own name, and nothing else is stored. -/
  stored : ∀ name host, r.get? name = some host ↔ host ∈ hosts ∧ host.name = name
  once : ∀ host ∈ hosts, r.groups.values.flatten.count host.name = 1
  own : ∀ host ∈ hosts, ∃ members, r.groups.get? host.group = some members ∧ host.name ∈ members
  ordered : ∀ group members, r.groups.get? group = some members → members = membersIn hosts group
  inhabited : ∀ group members, r.groups.get? group = some members → members ≠ []
  excepted : ∀ name platform, r.exceptions.get? name = some platform ↔
    ∃ host ∈ hosts, host.name = name ∧ host.platform = some platform

variable {r : Registry} {hosts : List Host}

/-! ### Members of groups -/

theorem mem_membersIn_iff {group name : String} :
    name ∈ membersIn hosts group ↔ ∃ host ∈ hosts, host.group = group ∧ host.name = name := by
  simp [membersIn, and_assoc]

theorem name_mem_membersIn {host : Host} (h : host ∈ hosts) : host.name ∈ membersIn hosts host.group :=
  mem_membersIn_iff.2 ⟨host, h, rfl, rfl⟩

theorem membersIn_ne_nil_iff {group : String} : membersIn hosts group ≠ [] ↔ ∃ host ∈ hosts, host.group = group := by
  simp [membersIn]

theorem nodup_membersIn (h : (hosts.map Host.name).Nodup) (group : String) : (membersIn hosts group).Nodup :=
  h.sublist (List.filter_sublist.map Host.name)

theorem disjoint_membersIn (h : (hosts.map Host.name).Nodup) {group group' : String} (hne : group ≠ group') :
    (membersIn hosts group).Disjoint (membersIn hosts group') := by
  intro name hname hname'
  obtain ⟨host, hhost, rfl, rfl⟩ := mem_membersIn_iff.1 hname
  obtain ⟨host', hhost', rfl, hsame⟩ := mem_membersIn_iff.1 hname'
  exact hne (congrArg Host.group (List.inj_on_of_nodup_map h hhost hhost' hsame.symm))

/-! ### Filling a registry -/

theorem ofHosts_eq (hosts : List Host) : ofHosts hosts = (hosts.map .newHost).foldlM Move.apply {} := by
  rw [List.foldlM_map]
  rfl

theorem holds_of_ofHosts (h : ofHosts hosts = .ok r) : r.Holds (hosts.map .newHost) := by
  rw [ofHosts_eq] at h
  exact holds_empty.foldlM_apply h

theorem exists_ofHosts_iff (hosts : List Host) : (∃ r, ofHosts hosts = .ok r) ↔ (hosts.map Host.name).Nodup := by
  have hmoves := holds_empty.exists_foldlM_apply_iff (hosts.map .newHost)
  rw [List.nil_append, Move.hosts_map_host] at hmoves
  rw [← hmoves]
  simp only [ofHosts_eq]

section Filled

variable (h : ofHosts hosts = .ok r)

include h

theorem nodup_of_ofHosts : (hosts.map Host.name).Nodup := (exists_ofHosts_iff hosts).1 ⟨r, h⟩

theorem get?_iff_of_ofHosts (name : String) (host : Host) :
    r.get? name = some host ↔ host ∈ hosts ∧ host.name = name := by
  have hperm : r.toList.Perm hosts := by
    have hlist := (holds_of_ofHosts h).toList
    rwa [Move.hosts_map_host] at hlist
  rw [← hperm.mem_iff, mem_toList_iff]
  constructor
  · intro hget
    have hname := r.named hget
    exact ⟨by rwa [hname], hname⟩
  · intro hhost
    rw [← hhost.2]
    exact hhost.1

theorem get?_groups_of_ofHosts (group : String) :
    r.groups.get? group = if membersIn hosts group = [] then none else some (membersIn hosts group) := by
  have hgroups := (holds_of_ofHosts h).groups group
  have hnamed : group ∈ (hosts.map Move.newHost).map Move.groupName ↔ membersIn hosts group ≠ [] := by
    rw [membersIn_ne_nil_iff]
    simp [Move.groupName]
  rw [Move.hosts_map_host] at hgroups
  rw [hgroups]
  by_cases hnil : membersIn hosts group = []
  · rw [if_pos hnil, if_neg fun hmem => hnamed.1 hmem hnil]
  · rw [if_neg hnil, if_pos (hnamed.2 hnil)]
    rfl

theorem groups_eq_some_iff_of_ofHosts (group : String) (members : List String) :
    r.groups.get? group = some members ↔ members = membersIn hosts group ∧ members ≠ [] := by
  rw [get?_groups_of_ofHosts h]
  by_cases hnil : membersIn hosts group = []
  · rw [if_pos hnil, hnil]
    simp
  · rw [if_neg hnil, Option.some_inj, eq_comm]
    constructor
    · intro hmembers
      exact ⟨hmembers, hmembers ▸ hnil⟩
    · intro hmembers
      exact hmembers.1

theorem mem_names_groups_iff_of_ofHosts (group : String) :
    group ∈ r.groups.names ↔ ∃ host ∈ hosts, host.group = group := by
  rw [NameMap.mem_names_iff, get?_groups_of_ofHosts h, ← membersIn_ne_nil_iff]
  by_cases hnil : membersIn hosts group = []
  · simp [hnil]
  · simp [hnil]

/-- No name is in two groups, or twice in one. -/
theorem nodup_flatten_groups : r.groups.values.flatten.Nodup := by
  have hmembers : ∀ e ∈ r.groups.entries, e.2 = membersIn hosts e.1 := by
    intro e he
    exact ((groups_eq_some_iff_of_ofHosts h e.1 e.2).1 ((r.groups.mem_entries_iff e.1 e.2).1 he)).1
  rw [List.nodup_flatten, NameMap.values, List.forall_mem_map, List.pairwise_map]
  constructor
  · intro e he
    rw [hmembers e he]
    exact nodup_membersIn (nodup_of_ofHosts h) e.1
  · refine r.groups.sorted.imp_of_mem ?_
    intro e e' he he' hlt
    rw [hmembers e he, hmembers e' he']
    exact disjoint_membersIn (nodup_of_ofHosts h) fun heq => String.lt_irrefl e'.1 (heq ▸ hlt)

theorem reflects_of_ofHosts : r.Reflects hosts := by
  have hown : ∀ host ∈ hosts, r.groups.get? host.group = some (membersIn hosts host.group) := by
    intro host hhost
    exact (groups_eq_some_iff_of_ofHosts h _ _).2 ⟨rfl, membersIn_ne_nil_iff.2 ⟨host, hhost, rfl⟩⟩
  refine ⟨get?_iff_of_ofHosts h, fun host hhost => ?_, fun host hhost => ?_, fun group members hgroup => ?_,
    fun group members hgroup => ?_, fun name platform => ?_⟩
  · apply List.count_eq_one_of_mem (nodup_flatten_groups h)
    have hentry := (r.groups.mem_entries_iff _ _).2 (hown host hhost)
    exact List.mem_flatten.2 ⟨_, List.mem_map_of_mem hentry, name_mem_membersIn hhost⟩
  · exact ⟨_, hown host hhost, name_mem_membersIn hhost⟩
  · exact ((groups_eq_some_iff_of_ofHosts h group members).1 hgroup).1
  · exact ((groups_eq_some_iff_of_ofHosts h group members).1 hgroup).2
  · rw [get?_exceptions, Option.bind_eq_some_iff]
    simp only [get?_iff_of_ofHosts h, and_assoc]

end Filled

/-! ### Repeated names -/

theorem add_eq_error {host : Host} {fault : RegistryFault} (h : r.add host = .error fault) :
    ∃ other, r.get? host.name = some other ∧ fault = .duplicate host.name other.group host.group := by
  cases hget : r.hosts.get? host.name with
  | none => simp [add, hget] at h
  | some other =>
    simp only [add, hget, Except.error.injEq] at h
    exact ⟨other, hget, h.symm⟩

theorem exists_repeated_of_ofHosts {fault : RegistryFault} (h : ofHosts hosts = .error fault) :
    ∃ before earlier host after, hosts = before ++ host :: after ∧ (before.map Host.name).Nodup ∧
      earlier ∈ before ∧ earlier.name = host.name ∧ fault = .duplicate host.name earlier.group host.group := by
  obtain ⟨before, host, after, made, hhosts, hbefore, hadd⟩ := exists_of_foldlM_eq_error h
  obtain ⟨earlier, hget, hfault⟩ := add_eq_error hadd
  have hearlier := (get?_iff_of_ofHosts hbefore host.name earlier).1 hget
  exact ⟨before, earlier, host, after, hhosts, nodup_of_ofHosts hbefore, hearlier.1, hearlier.2, hfault⟩

/-! ### Lists in another order

Each look-up depends only on the members of the list, or on a filtered part of it. -/

section Reordered

variable {r' : Registry} {hosts' : List Host}
variable (h : ofHosts hosts = .ok r) (h' : ofHosts hosts' = .ok r') (hperm : hosts'.Perm hosts)

include h h' hperm

theorem hosts_eq_of_perm : r'.hosts = r.hosts := by
  apply NameMap.ext_get?
  intro name
  ext host
  show r'.get? name = some host ↔ r.get? name = some host
  rw [get?_iff_of_ofHosts h', get?_iff_of_ofHosts h, hperm.mem_iff]

theorem groups_names_eq_of_perm : r'.groups.names = r.groups.names := by
  apply NameMap.names_eq_of_mem_iff
  intro group
  rw [mem_names_groups_iff_of_ofHosts h', mem_names_groups_iff_of_ofHosts h]
  simp only [hperm.mem_iff]

theorem groups_perm_of_perm {group : String} {members : List String} (hgroup : r.groups.get? group = some members) :
    ∃ members', r'.groups.get? group = some members' ∧ members'.Perm members := by
  obtain ⟨rfl, hne⟩ := (groups_eq_some_iff_of_ofHosts h group members).1 hgroup
  have hmembers : (membersIn hosts' group).Perm (membersIn hosts group) := (hperm.filter _).map _
  have hne' : membersIn hosts' group ≠ [] := by
    intro hnil
    rw [hnil] at hmembers
    exact hne hmembers.symm.eq_nil
  exact ⟨_, (groups_eq_some_iff_of_ofHosts h' _ _).2 ⟨rfl, hne'⟩, hmembers⟩

end Reordered

/-- A list of hosts makes a registry exactly if its names are distinct; else the first host whose name came before is
reported, with the group of the earlier host and its own. The registry reflects the list, and the order of the list makes
no difference but to the order within the groups. -/
theorem ofHosts_reflects_list (hosts : List Host) :
    ((∃ r, ofHosts hosts = .ok r) ↔ (hosts.map Host.name).Nodup) ∧
    (¬ (hosts.map Host.name).Nodup → ∃ before earlier host after,
      hosts = before ++ host :: after ∧ (before.map Host.name).Nodup ∧ earlier ∈ before ∧ earlier.name = host.name ∧
      ofHosts hosts = .error (.duplicate host.name earlier.group host.group)) ∧
    ∀ r, ofHosts hosts = .ok r → r.Reflects hosts ∧
      ∀ hosts' : List Host, hosts'.Perm hosts → ∃ r', ofHosts hosts' = .ok r' ∧
        r'.hosts = r.hosts ∧ r'.exceptions = r.exceptions ∧ r'.groups.names = r.groups.names ∧
        ∀ group members, r.groups.get? group = some members →
          ∃ members', r'.groups.get? group = some members' ∧ members'.Perm members := by
  refine ⟨exists_ofHosts_iff hosts, fun hrepeated => ?_, fun r h => ⟨reflects_of_ofHosts h, fun hosts' hperm => ?_⟩⟩
  · cases hresult : ofHosts hosts with
    | ok r => exact absurd (nodup_of_ofHosts hresult) hrepeated
    | error fault =>
      obtain ⟨before, earlier, host, after, hhosts, hnodup, hmem, hname, rfl⟩ := exists_repeated_of_ofHosts hresult
      exact ⟨before, earlier, host, after, hhosts, hnodup, hmem, hname, rfl⟩
  · have hnodup : (hosts'.map Host.name).Nodup := (hperm.map Host.name).nodup_iff.2 (nodup_of_ofHosts h)
    obtain ⟨r', h'⟩ := (exists_ofHosts_iff hosts').2 hnodup
    have hhosts : r'.hosts = r.hosts := hosts_eq_of_perm h h' hperm
    have hexceptions : r'.exceptions = r.exceptions := by rw [exceptions, exceptions, toList, toList, hhosts]
    exact ⟨r', h', hhosts, hexceptions, groups_names_eq_of_perm h h' hperm,
      fun group members => groups_perm_of_perm h h' hperm⟩

/-- Two groups, and a host with a platform of its own. -/
def roster : List Host :=
  [⟨"torch", "servers", [], none, ⟨[]⟩⟩, ⟨"ember", "desktops", [], some ⟨"aarch64"⟩, ⟨[]⟩⟩,
    ⟨"ash", "servers", [], none, ⟨[]⟩⟩]

/-- A second host of a name in `roster`, in another group. -/
def namesake : Host := ⟨"ash", "desktops", [], none, ⟨[]⟩⟩

theorem roster_reflected :
    (∃ r r', ofHosts roster = .ok r ∧ r.Reflects roster ∧ ofHosts roster.reverse = .ok r' ∧ r'.hosts = r.hosts ∧
      r.groups.get? "servers" = some ["torch", "ash"] ∧ r'.groups.get? "servers" = some ["ash", "torch"]) ∧
    ∃ before earlier host after, roster ++ [namesake] = before ++ host :: after ∧ earlier ∈ before ∧
      earlier.name = host.name ∧
      RegistryFault.duplicate host.name earlier.group host.group = .duplicate "ash" "servers" "desktops" := by
  have hnodup : (roster.map Host.name).Nodup := by decide
  have hrepeated : ¬ ((roster ++ [namesake]).map Host.name).Nodup := by decide
  constructor
  · obtain ⟨r, h⟩ := (ofHosts_reflects_list roster).1.2 hnodup
    obtain ⟨hreflects, hreordered⟩ := (ofHosts_reflects_list roster).2.2 r h
    obtain ⟨r', h', hhosts, -⟩ := hreordered roster.reverse roster.reverse_perm
    exact ⟨r, r', h, hreflects, h', hhosts, get?_groups_of_ofHosts h "servers", get?_groups_of_ofHosts h' "servers"⟩
  · obtain ⟨before, earlier, host, after, hhosts, -, hmem, hname, herror⟩ :=
      (ofHosts_reflects_list (roster ++ [namesake])).2.1 hrepeated
    have hfault : ofHosts (roster ++ [namesake]) = .error (.duplicate "ash" "servers" "desktops") := rfl
    exact ⟨before, earlier, host, after, hhosts, hmem, hname, Except.error.inj (herror.symm.trans hfault)⟩

end HostFleet.Registry
