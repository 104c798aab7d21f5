import Mathlib.Data.List.Nodup
import HostFleet.Proofs.NameMap
import HostFleet.Proofs.Outcome
import HostFleet.Registry

/-!
# What a registry holds

A host is listed exactly where its name finds it, and the exceptions from the default platform are the platforms that hosts
give themselves. A registry is filled by moves, each of which brings a group or a host. It takes them exactly if no two
hosts have one name, and then it lists the hosts of the moves, and under each group that was brought the names of its
hosts in the order in which they came.
-/

namespace HostFleet.Registry

variable (r : Registry)

theorem mem_toList_iff (host : Host) : host ∈ r.toList ↔ r.get? host.name = some host := by
  constructor
  · intro hmem
    obtain ⟨⟨name, stored⟩, hentry, rfl⟩ := List.mem_map.1 hmem
    have hget : r.hosts.get? name = some stored := (r.hosts.mem_entries_iff name stored).1 hentry
    have hname : stored.name = name := r.named hget
    rw [hname]
    exact hget
  · intro hget
    exact List.mem_map_of_mem ((r.hosts.mem_entries_iff host.name host).2 hget)

theorem mem_toList_of_get? {name : String} {host : Host} (h : r.get? name = some host) : host ∈ r.toList := by
  rw [mem_toList_iff, r.named h]
  exact h

theorem map_name_toList : r.toList.map Host.name = r.hosts.names := by
  rw [toList, NameMap.values, NameMap.names, List.map_map]
  refine List.map_congr_left fun e he => ?_
  exact r.named ((r.hosts.mem_entries_iff e.1 e.2).1 he)

theorem nodup_map_name_toList : (r.toList.map Host.name).Nodup := by
  rw [map_name_toList]
  exact r.hosts.nodup_names

theorem pairwise_name_toList : r.toList.Pairwise fun host other => host.name < other.name := by
  rw [← List.pairwise_map (f := Host.name), map_name_toList]
  exact List.pairwise_map.2 r.hosts.sorted

/-- A host is an exception exactly if it gives itself a platform. -/
theorem get?_exceptions (name : String) : r.exceptions.get? name = (r.get? name).bind Host.platform := by
  have hsound : ∀ platform, r.exceptions.get? name = some platform → (r.get? name).bind Host.platform = some platform := by
    intro platform h
    obtain ⟨host, hhost, hentry⟩ := List.mem_filterMap.1 (NameMap.mem_of_get?_ofList h)
    obtain ⟨own, hown, heq⟩ := Option.map_eq_some_iff.1 hentry
    obtain ⟨rfl, rfl⟩ := Prod.mk.inj heq
    rw [(r.mem_toList_iff host).1 hhost]
    exact hown
  refine Option.ext fun platform => ⟨hsound platform, fun h => ?_⟩
  obtain ⟨host, hget, hown⟩ := Option.bind_eq_some_iff.1 h
  have hlisted : (name, platform) ∈ r.toList.filterMap fun host => host.platform.map (host.name, ·) :=
    List.mem_filterMap.2 ⟨host, r.mem_toList_of_get? hget, by rw [hown, r.named hget]; rfl⟩
  have hname : name ∈ r.exceptions.names := (NameMap.mem_names_ofList _ _).2 (List.mem_map_of_mem hlisted)
  obtain ⟨held, hheld⟩ := Option.isSome_iff_exists.1 ((NameMap.mem_names_iff _ _).1 hname)
  rw [hheld, ← hsound held hheld, h]

/-! ### Filling a registry -/

/-- What a registry is brought: a group, or a host of a group. -/
inductive Move where
  | newGroup (name : String)
  | newHost (host : Host)

namespace Move

def apply (r : Registry) : Move → Except RegistryFault Registry
  | .newGroup name => .ok (r.addGroup name)
  | .newHost host => r.add host

def groupName : Move → String
  | .newGroup name => name
  | .newHost host => host.group

/-- The hosts that moves bring, in order. -/
def hosts (moves : List Move) : List Host :=
  moves.filterMap fun
    | .newGroup _ => none
    | .newHost host => some host

theorem hosts_append (moves more : List Move) : hosts (moves ++ more) = hosts moves ++ hosts more :=
  List.filterMap_append

theorem hosts_map_host (l : List Host) : hosts (l.map .newHost) = l := by
  induction l with
  | nil => rfl
  | cons host rest ih => exact congrArg (host :: ·) ih

theorem groupName_mem_of_mem_hosts {moves : List Move} {host : Host} (h : host ∈ hosts moves) :
    host.group ∈ moves.map groupName := by
  obtain ⟨move, hmove, hhost⟩ := List.mem_filterMap.1 h
  cases move with
  | newGroup name => simp at hhost
  | newHost other =>
    obtain rfl := Option.some.inj hhost
    exact List.mem_map_of_mem hmove

end Move

/-- A registry holds what some moves brought. -/
structure Holds (r : Registry) (moves : List Move) : Prop where
  toList : r.toList.Perm (Move.hosts moves)
  groups : ∀ group, r.groups.get? group =
    if group ∈ moves.map Move.groupName then
      some (((Move.hosts moves).filter fun host => host.group = group).map Host.name)
    else none

theorem holds_empty : Holds {} [] where
  toList := List.Perm.refl []
  groups _ := rfl

variable {r} {moves : List Move}

namespace Holds

theorem nodup (h : r.Holds moves) : ((Move.hosts moves).map Host.name).Nodup :=
  (h.toList.map Host.name).nodup_iff.1 r.nodup_map_name_toList

theorem get?_eq_none_iff (h : r.Holds moves) (name : String) :
    r.get? name = none ↔ name ∉ (Move.hosts moves).map Host.name := by
  rw [← (h.toList.map Host.name).mem_iff, map_name_toList, NameMap.mem_names_iff]
  simp [get?]

/-- The names listed under a group, whether or not it was brought. -/
theorem getD_groups (h : r.Holds moves) (group : String) :
    (r.groups.get? group).getD [] = ((Move.hosts moves).filter fun host => host.group = group).map Host.name := by
  rw [h.groups]
  split
  · rfl
  · rename_i hout
    symm
    rw [Option.getD_none, List.map_eq_nil_iff, List.filter_eq_nil_iff]
    intro host hhost hgroup
    exact hout (of_decide_eq_true hgroup ▸ Move.groupName_mem_of_mem_hosts hhost)

theorem addGroup (h : r.Holds moves) (name : String) : (r.addGroup name).Holds (moves ++ [.newGroup name]) := by
  have hhosts : Move.hosts (moves ++ [.newGroup name]) = Move.hosts moves := by
    rw [Move.hosts_append]
    exact List.append_nil _
  refine ⟨hhosts ▸ h.toList, fun group => ?_⟩
  rw [Registry.addGroup, NameMap.get?_insert, hhosts, h.getD_groups, h.groups]
  by_cases hgroup : group = name
  · simp [hgroup, Move.groupName]
  · simp [hgroup, Move.groupName]

theorem add {r' : Registry} {host : Host} (h : r.Holds moves) (hadd : r.add host = .ok r') :
    r'.Holds (moves ++ [.newHost host]) := by
  have hhosts : Move.hosts (moves ++ [.newHost host]) = Move.hosts moves ++ [host] := Move.hosts_append _ _
  cases hget : r.hosts.get? host.name with
  | some other => simp [Registry.add, hget] at hadd
  | none =>
    simp only [Registry.add, hget, Except.ok.injEq] at hadd
    subst hadd
    have hfresh : host.name ∉ (Move.hosts moves).map Host.name := (h.get?_eq_none_iff _).1 hget
    refine ⟨?_, fun group => ?_⟩
    · refine (List.perm_ext_iff_of_nodup (List.Nodup.of_map Host.name (nodup_map_name_toList _)) ?_).2 fun x => ?_
      · refine List.Nodup.of_map Host.name ?_
        rw [hhosts, List.map_append]
        exact List.nodup_append.2 ⟨h.nodup, List.nodup_singleton _, by simpa using hfresh⟩
      · rw [mem_toList_iff, get?, NameMap.get?_insert, hhosts, List.mem_append, List.mem_singleton, ← h.toList.mem_iff,
          mem_toList_iff]
        by_cases hname : x.name = host.name
        · rw [if_pos hname, Option.some_inj, get?, hname, hget]
          simp [eq_comm]
        · have hne : x ≠ host := fun heq => hname (congrArg Host.name heq)
          simp [if_neg hname, hne, get?]
    · rw [NameMap.get?_insert, hhosts, h.getD_groups, h.groups]
      by_cases hgroup : group = host.group
      · simp [hgroup, Move.groupName]
      · simp [hgroup, Move.groupName, Ne.symm hgroup]

/-! ### One move and many -/

theorem apply {r' : Registry} {move : Move} (h : r.Holds moves) (hmove : move.apply r = .ok r') :
    r'.Holds (moves ++ [move]) := by
  cases move with
  | newGroup name =>
    obtain rfl := Except.ok.inj hmove
    exact h.addGroup name
  | newHost host => exact h.add hmove

theorem exists_apply_iff (h : r.Holds moves) (move : Move) :
    (∃ r', move.apply r = .ok r') ↔ ((Move.hosts (moves ++ [move])).map Host.name).Nodup := by
  constructor
  · rintro ⟨r', hmove⟩
    exact (h.apply hmove).nodup
  · intro hnodup
    cases move with
    | newGroup name => exact ⟨_, rfl⟩
    | newHost host =>
      have hfresh : host.name ∉ (Move.hosts moves).map Host.name := by
        rw [Move.hosts_append, List.map_append] at hnodup
        intro hmem
        exact (List.nodup_append.1 hnodup).2.2 _ hmem _ (List.mem_singleton_self host.name) rfl
      have hget : r.hosts.get? host.name = none := (h.get?_eq_none_iff _).2 hfresh
      simp [Move.apply, Registry.add, hget]

theorem foldlM_apply {more : List Move} {r' : Registry} (h : r.Holds moves) (hmoves : more.foldlM Move.apply r = .ok r') :
    r'.Holds (moves ++ more) := by
  induction more generalizing r moves with
  | nil =>
    obtain rfl := Except.ok.inj hmoves
    rwa [List.append_nil]
  | cons move rest ih =>
    obtain ⟨r₁, hmove, hrest⟩ := bind_eq_ok_iff.1 hmoves
    have hend := ih (h.apply hmove) hrest
    rwa [List.append_assoc] at hend

theorem exists_foldlM_apply_iff (h : r.Holds moves) (more : List Move) :
    (∃ r', more.foldlM Move.apply r = .ok r') ↔ ((Move.hosts (moves ++ more)).map Host.name).Nodup := by
  induction more generalizing r moves with
  | nil => exact ⟨fun _ => by simpa using h.nodup, fun _ => ⟨r, rfl⟩⟩
  | cons move rest ih =>
    rw [List.append_cons]
    constructor
    · rintro ⟨r', hmoves⟩
      obtain ⟨r₁, hmove, hrest⟩ := bind_eq_ok_iff.1 hmoves
      exact (ih (h.apply hmove)).1 ⟨r', hrest⟩
    · intro hnodup
      have hfirst : ((Move.hosts (moves ++ [move])).map Host.name).Nodup := by
        rw [Move.hosts_append, List.map_append] at hnodup
        exact (List.nodup_append.1 hnodup).1
      obtain ⟨r₁, hmove⟩ := (h.exists_apply_iff move).2 hfirst
      obtain ⟨r', hrest⟩ := (ih (h.apply hmove)).2 hnodup
      exact ⟨r', bind_eq_ok_iff.2 ⟨r₁, hmove, hrest⟩⟩

end Holds

end HostFleet.Registry
