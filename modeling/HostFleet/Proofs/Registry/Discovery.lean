import HostFleet.FileSystem.Tree
import HostFleet.Proofs.Registry
import HostFleet.Proofs.Text.Utf8
import HostFleet.Registry.Discovery

/-!
# What discovery finds

A directory of groups is read without regard to the order of its faults: which entries are groups, which files stand for
hosts, and what must hold of them. Discovery succeeds exactly if all of this holds, and then the registry has one host for
each file and one group for each directory.
-/

namespace HostFleet

/-! ### Names of entries -/

namespace Path

/-- A stem is the whole name or is followed by a dot. -/
theorem divide_stem (n : FileName) : (divide n).1 = n ∨ ∃ after, n = (divide n).1 ++ dot :: after := by
  have hn := List.takeWhile_append_dropWhile (p := fun b => decide (b ≠ dot)) (l := n.reverse)
  have hhead := List.head?_dropWhile_not (fun b => decide (b ≠ dot)) n.reverse
  rw [divide]
  generalize n.reverse.takeWhile (fun b => decide (b ≠ dot)) = tail at hn ⊢
  generalize n.reverse.dropWhile (fun b => decide (b ≠ dot)) = rest at hn hhead
  have hlength := congrArg List.length hn
  rw [List.length_append, List.length_reverse] at hlength
  split
  · exact .inl rfl
  · rename_i hbefore
    refine .inr ⟨tail.reverse, ?_⟩
    cases rest with
    | nil =>
      have hnone : n.length - tail.reverse.length - 1 = 0 := by
        rw [List.length_reverse]
        simp only [List.length_nil] at hlength
        omega
      rw [hnone, List.take_zero] at hbefore
      exact absurd rfl hbefore
    | cons b rest =>
      obtain rfl : b = dot := by simpa using hhead
      have hsplit : n = rest.reverse ++ dot :: tail.reverse := by
        simpa using (congrArg List.reverse hn).symm
      have htake : n.length - tail.reverse.length - 1 = rest.reverse.length := by
        rw [List.length_reverse, List.length_reverse]
        simp only [List.length_cons] at hlength
        omega
      dsimp only
      rw [htake]
      conv_rhs => rw [hsplit, List.take_left]
      exact hsplit

def textName? (path : Path) : Option String := path.fileName?.bind Utf8.decode?

/-- Whether the name at the end of a path does not start with a dot. -/
def isVisible (path : Path) : Bool := path.fileName?.any fun name => name.head? ≠ some dot

theorem exists_decode?_stem? {path : Path} (h : path.textName?.isSome) : ∃ name, path.stem?.bind Utf8.decode? = some name := by
  obtain ⟨text, htext⟩ := Option.isSome_iff_exists.1 h
  obtain ⟨n, hname, hdecode⟩ := Option.bind_eq_some_iff.1 htext
  rw [stem?, hname]
  rcases divide_stem n with hwhole | ⟨after, hafter⟩
  · exact ⟨text, by simpa [hwhole] using hdecode⟩
  · rw [hafter] at hdecode
    exact Utf8.exists_decode?_of_append (by decide) hdecode

end Path

namespace Registry

theorem startsWith_dot_iff {octets : List UInt8} {name : String} (h : Utf8.decode? octets = some name) :
    name.startsWith "." = true ↔ octets.head? = some Path.dot := by
  rw [← Utf8.encode_of_decode? h, Utf8.head?_encode_eq_iff (by decide), String.startsWith_string_iff]
  cases name.toList with
  | nil => simp
  | cons c rest => simp [Path.dot, eq_comm]

theorem visibleName_of_textName?_eq_none {path : Path} (h : path.textName? = none) :
    visibleName path = .error (.invalidName path) := by
  rw [Path.textName?] at h
  rw [visibleName, h]

theorem visibleName_of_textName? {path : Path} {name : String} (h : path.textName? = some name) :
    visibleName path = .ok (if path.isVisible then some name else none) := by
  obtain ⟨octets, hname, hdecode⟩ := Option.bind_eq_some_iff.1 h
  rw [Path.textName?] at h
  rw [visibleName, h]
  by_cases hdot : octets.head? = some Path.dot
  · simp [(startsWith_dot_iff hdecode).2 hdot, Path.isVisible, hname, hdot]
  · have hshown : name.startsWith "." = false := by
      rw [← Bool.not_eq_true, startsWith_dot_iff hdecode]
      exact hdot
    simp [hshown, Path.isVisible, hname, hdot]

/-! ### What stands in a directory of groups -/

section Layout

variable (parse : HostFile.Parser) (fs : FileSystem)

def entries (dir : Path) : List Path := (fs.list dir).toOption.getD []

/-- Whether an entry of the directory of groups is a group. -/
def isGroup (path : Path) : Bool := path.isVisible && fs.isDir path

/-- Whether an entry of a group defines a host. -/
def isHostFile (path : Path) : Bool := path.isVisible && !fs.isDir path

def groupDirs (hostsDir : Path) : List Path := (entries fs hostsDir).filter (isGroup fs)

def hostFiles (dir : Path) : List Path := (entries fs dir).filter (isHostFile fs)

/-- The files that define hosts, each with the directory of its group, in the order of both. -/
def sites (hostsDir : Path) : List (Path × Path) :=
  (groupDirs fs hostsDir).flatMap fun dir => (hostFiles fs dir).map (dir, ·)

/-- A directory can be listed, and the names in it are text. -/
def Legible (dir : Path) : Prop :=
  (∃ paths, fs.list dir = .ok paths) ∧ ∀ path ∈ entries fs dir, path.textName?.isSome

/-- A file says what its host is, if it should. -/
def Described (path : Path) : Prop :=
  path.extension? = some (Utf8.encode "toml") → ∃ text said, fs.read path = .ok text ∧ parse text = .ok said

/-- What discovery asks of a directory of groups. -/
structure Discoverable (hostsDir : Path) : Prop where
  legible : ∀ dir ∈ hostsDir :: groupDirs fs hostsDir, Legible fs dir
  described : ∀ site ∈ sites fs hostsDir, Described parse fs site.2
  distinct : ((sites fs hostsDir).map fun site => site.2.stem?).Nodup

/-- What a file says about its host: what its description does, or else that the file is the one module of the host. -/
def Says (root path : Path) (said : HostFile) : Prop :=
  if path.extension? = some (Utf8.encode "toml") then ∃ text, fs.read path = .ok text ∧ parse text = .ok said
  else said = { modules := [path.reference root], platform := none }

/-- A host of a group is as its file says. -/
structure Stands (root : Path) (group : String) (path : Path) (host : Host) : Prop where
  name : path.stem?.bind Utf8.decode? = some host.name
  group : host.group = group
  file : host.file = path
  content : ∃ said, Says parse fs root path said ∧ host.modules = said.modules ∧ host.platform = said.platform

end Layout

variable {parse : HostFile.Parser} {fs : FileSystem} {root : Path}

theorem describe_eq_ok_iff {path : Path} {said : HostFile} :
    describe parse fs path = .ok said ↔ ∃ text, fs.read path = .ok text ∧ parse text = .ok said := by
  simp only [describe, bind_eq_ok_iff, mapError_eq_ok_iff]

theorem says_iff {path : Path} {said : HostFile} :
    (if isDescription path then describe parse fs path else .ok { modules := [path.reference root] }) = .ok said ↔
      Says parse fs root path said := by
  rw [Says, isDescription]
  by_cases htoml : path.extension? = some (Utf8.encode "toml")
  · rw [if_pos (decide_eq_true htoml), if_pos htoml, describe_eq_ok_iff]
  · rw [if_neg (by simpa using htoml), if_neg htoml, Except.ok.injEq]
    exact eq_comm

theorem loadHost_of_stem? {path : Path} {name : String} (h : path.stem?.bind Utf8.decode? = some name) (group : String) :
    loadHost parse fs root group path =
      (if isDescription path then describe parse fs path else .ok { modules := [path.reference root] }) >>= fun said =>
        .ok ⟨name, group, said.modules, said.platform, path⟩ := by
  rw [loadHost, h]
  cases isDescription path <;> rfl

theorem loadHost_eq_ok_iff {group : String} {path : Path} {host : Host} :
    loadHost parse fs root group path = .ok host ↔ Stands parse fs root group path host := by
  cases hstem : path.stem?.bind Utf8.decode? with
  | none =>
    rw [loadHost, hstem]
    refine iff_of_false (by simp) fun h => ?_
    have hname := h.name
    simp [hstem] at hname
  | some name =>
    simp only [loadHost_of_stem? hstem, bind_eq_ok_iff, says_iff]
    constructor
    · rintro ⟨said, hsaid, hhost⟩
      obtain rfl := Except.ok.inj hhost
      exact ⟨hstem, rfl, rfl, said, hsaid, rfl, rfl⟩
    · rintro ⟨hname, rfl, rfl, said, hsaid, hmodules, hplatform⟩
      obtain rfl := Option.some.inj (hstem.symm.trans hname)
      refine ⟨said, hsaid, ?_⟩
      rw [← hmodules, ← hplatform]

theorem exists_says_iff (parse : HostFile.Parser) (fs : FileSystem) (root path : Path) :
    (∃ said, Says parse fs root path said) ↔ Described parse fs path := by
  unfold Says Described
  by_cases htoml : path.extension? = some (Utf8.encode "toml")
  · simp only [htoml, true_implies]
    exact exists_comm
  · simp [htoml]

theorem exists_stands_iff {path : Path} (hname : path.textName?.isSome) (group : String) :
    (∃ host, Stands parse fs root group path host) ↔ Described parse fs path := by
  obtain ⟨name, hstem⟩ := Path.exists_decode?_stem? hname
  rw [← exists_says_iff parse fs root path]
  constructor
  · rintro ⟨host, -, -, -, said, hsaid, -, -⟩
    exact ⟨said, hsaid⟩
  · rintro ⟨said, hsaid⟩
    exact ⟨⟨name, group, said.modules, said.platform, path⟩, hstem, rfl, rfl, said, hsaid, rfl, rfl⟩

/-! ### The moves of a visit -/

/-- A walk over entries, each of which is passed over or brings moves, succeeds if all entries are named and their moves can
be made one after another. -/
theorem foldlM_visit_eq_ok_iff {visit : Registry → Path → Except RegistryFault Registry} {keep : Path → Bool}
    {brings : Path → List Move → Prop}
    (hvisit : ∀ r r' path, visit r path = .ok r' ↔ path.textName?.isSome ∧
      if keep path then ∃ moves, brings path moves ∧ moves.foldlM Move.apply r = .ok r' else r' = r)
    (paths : List Path) (r r' : Registry) :
    paths.foldlM visit r = .ok r' ↔ (∀ path ∈ paths, path.textName?.isSome) ∧
      ∃ moves, List.Forall₂ brings (paths.filter keep) moves ∧ moves.flatten.foldlM Move.apply r = .ok r' := by
  induction paths generalizing r with
  | nil =>
    constructor
    · intro h
      exact ⟨by simp, [], .nil, h⟩
    · rintro ⟨-, moves, hmoves, h⟩
      obtain rfl := List.forall₂_nil_left_iff.1 hmoves
      exact h
  | cons path rest ih =>
    rw [List.foldlM_cons, bind_eq_ok_iff]
    simp only [hvisit, ih, List.forall_mem_cons, List.filter_cons]
    cases keep path with
    | false =>
      simp only [Bool.false_eq_true, if_false]
      constructor
      · rintro ⟨r₁, ⟨hname, rfl⟩, hnames, hmoves⟩
        exact ⟨⟨hname, hnames⟩, hmoves⟩
      · rintro ⟨⟨hname, hnames⟩, hmoves⟩
        exact ⟨r, ⟨hname, rfl⟩, hnames, hmoves⟩
    | true =>
      simp only [if_true]
      constructor
      · rintro ⟨r₁, ⟨hname, first, hfirst, hr₁⟩, hnames, more, hmore, hr'⟩
        refine ⟨⟨hname, hnames⟩, first :: more, .cons hfirst hmore, ?_⟩
        rw [List.flatten_cons, List.foldlM_append, bind_eq_ok_iff]
        exact ⟨r₁, hr₁, hr'⟩
      · rintro ⟨⟨hname, hnames⟩, moves, hmoves, hr'⟩
        obtain ⟨first, more, hfirst, hmore, rfl⟩ := List.forall₂_cons_left_iff.1 hmoves
        rw [List.flatten_cons, List.foldlM_append, bind_eq_ok_iff] at hr'
        obtain ⟨r₁, hr₁, hr'⟩ := hr'
        exact ⟨r₁, ⟨hname, first, hfirst, hr₁⟩, hnames, more, hmore, hr'⟩

/-- An entry of a group brings its host. -/
def EntryBrings (parse : HostFile.Parser) (fs : FileSystem) (root : Path) (group : String) (path : Path)
    (moves : List Move) : Prop :=
  ∃ host, Stands parse fs root group path host ∧ moves = [.newHost host]

/-- A group brings itself and the hosts of its files. -/
def GroupBrings (parse : HostFile.Parser) (fs : FileSystem) (root : Path) (dir : Path) (moves : List Move) : Prop :=
  Legible fs dir ∧ ∃ group hosts, dir.textName? = some group ∧
    List.Forall₂ (Stands parse fs root group) (hostFiles fs dir) hosts ∧ moves = .newGroup group :: hosts.map .newHost

theorem outcome_visitEntry_of_none {path : Path} (h : path.textName? = none) (group : String) (r : Registry) :
    (visitEntry parse fs root group r path).outcome = .error (.invalidName path) := by
  rw [visitEntry, visibleName_of_textName?_eq_none h]
  rfl

theorem outcome_visitEntry {path : Path} {name : String} (h : path.textName? = some name) (group : String) (r : Registry) :
    (visitEntry parse fs root group r path).outcome =
      if isHostFile fs path then loadHost parse fs root group path >>= r.add else .ok r := by
  rw [visitEntry, visibleName_of_textName? h]
  by_cases hvisible : path.isVisible = true
  · by_cases hdir : fs.isDir path = true
    · simp only [isHostFile, hvisible, hdir, if_true]
      rfl
    · simp only [isHostFile, hvisible, hdir, if_true]
      cases loadHost parse fs root group path <;> rfl
  · simp only [isHostFile, hvisible]
    rfl

theorem visitEntry_eq_ok_iff (group : String) (r r' : Registry) (path : Path) :
    (visitEntry parse fs root group r path).outcome = .ok r' ↔ path.textName?.isSome ∧
      if isHostFile fs path then ∃ moves, EntryBrings parse fs root group path moves ∧ moves.foldlM Move.apply r = .ok r'
      else r' = r := by
  cases htext : path.textName? with
  | none =>
    rw [outcome_visitEntry_of_none htext]
    exact iff_of_false (by simp) (by simp)
  | some name =>
    rw [outcome_visitEntry htext]
    by_cases hfile : isHostFile fs path = true
    · rw [if_pos hfile, if_pos hfile, bind_eq_ok_iff]
      constructor
      · rintro ⟨host, hload, hadd⟩
        exact ⟨rfl, _, ⟨host, loadHost_eq_ok_iff.1 hload, rfl⟩, bind_eq_ok_iff.2 ⟨r', hadd, rfl⟩⟩
      · rintro ⟨-, _, ⟨host, hstands, rfl⟩, hmove⟩
        obtain ⟨r₁, hadd, hr₁⟩ := bind_eq_ok_iff.1 hmove
        obtain rfl := Except.ok.inj hr₁
        exact ⟨host, loadHost_eq_ok_iff.2 hstands, hadd⟩
    · rw [if_neg hfile, if_neg hfile]
      simp [eq_comm]

/-- The hosts of the files of a group, as the moves of its entries. -/
theorem forall₂_entryBrings_iff {group : String} {paths : List Path} {moves : List Move} :
    (∃ each, List.Forall₂ (EntryBrings parse fs root group) paths each ∧ each.flatten = moves) ↔
      ∃ hosts, List.Forall₂ (Stands parse fs root group) paths hosts ∧ moves = hosts.map .newHost := by
  constructor
  · rintro ⟨each, heach, rfl⟩
    induction heach with
    | nil => exact ⟨[], .nil, rfl⟩
    | cons hfirst _ ih =>
      obtain ⟨host, hstands, rfl⟩ := hfirst
      obtain ⟨hosts, hhosts, hmoves⟩ := ih
      exact ⟨host :: hosts, .cons hstands hhosts, congrArg (Move.newHost host :: ·) hmoves⟩
  · rintro ⟨hosts, hhosts, rfl⟩
    induction hhosts with
    | nil => exact ⟨[], .nil, rfl⟩
    | cons hfirst _ ih =>
      obtain ⟨each, heach, hmoves⟩ := ih
      exact ⟨_ :: each, .cons ⟨_, hfirst, rfl⟩ heach, congrArg (Move.newHost _ :: ·) hmoves⟩

theorem outcome_visitGroup_of_none {path : Path} (h : path.textName? = none) (r : Registry) :
    (visitGroup parse fs root r path).outcome = .error (.invalidName path) := by
  rw [visitGroup, visibleName_of_textName?_eq_none h]
  rfl

theorem outcome_visitGroup {path : Path} {group : String} (h : path.textName? = some group) (r : Registry) :
    (visitGroup parse fs root r path).outcome =
      if isGroup fs path then
        listing fs path >>= fun paths => (paths.foldlM (visitEntry parse fs root group) (r.addGroup group)).outcome
      else .ok r := by
  rw [visitGroup, visibleName_of_textName? h]
  by_cases hvisible : path.isVisible = true
  · by_cases hdir : fs.isDir path = true
    · simp only [isGroup, hvisible, hdir, if_true]
      cases listing fs path <;> rfl
    · simp only [isGroup, hvisible, hdir, if_true]
      rfl
  · simp only [isGroup, hvisible]
    rfl

theorem listing_eq_ok_iff {dir : Path} {paths : List Path} : listing fs dir = .ok paths ↔ fs.list dir = .ok paths :=
  mapError_eq_ok_iff

theorem entries_of_list {dir : Path} {paths : List Path} (h : fs.list dir = .ok paths) : entries fs dir = paths := by
  rw [entries, h]
  rfl

theorem visitGroup_eq_ok_iff (r r' : Registry) (path : Path) :
    (visitGroup parse fs root r path).outcome = .ok r' ↔ path.textName?.isSome ∧
      if isGroup fs path then ∃ moves, GroupBrings parse fs root path moves ∧ moves.foldlM Move.apply r = .ok r'
      else r' = r := by
  cases htext : path.textName? with
  | none =>
    rw [outcome_visitGroup_of_none htext]
    exact iff_of_false (by simp) (by simp)
  | some group =>
    rw [outcome_visitGroup htext]
    by_cases hgroup : isGroup fs path = true
    · rw [if_pos hgroup, if_pos hgroup, bind_eq_ok_iff]
      simp only [listing_eq_ok_iff, Logged.outcome_foldlM, foldlM_visit_eq_ok_iff (visitEntry_eq_ok_iff group)]
      constructor
      · rintro ⟨paths, hlist, hnames, each, heach, hmoves⟩
        obtain ⟨hosts, hhosts, hflat⟩ := forall₂_entryBrings_iff.1 ⟨each, heach, rfl⟩
        rw [hflat] at hmoves
        rw [← entries_of_list hlist] at hnames hhosts
        exact ⟨rfl, _, ⟨⟨⟨paths, hlist⟩, hnames⟩, group, hosts, htext, hhosts, rfl⟩, hmoves⟩
      · rintro ⟨-, _, ⟨⟨⟨paths, hlist⟩, hnames⟩, group', hosts, hgroup', hhosts, rfl⟩, hmoves⟩
        obtain rfl := Option.some.inj (htext.symm.trans hgroup')
        rw [hostFiles, entries_of_list hlist] at hhosts
        rw [entries_of_list hlist] at hnames
        obtain ⟨each, heach, hflat⟩ := forall₂_entryBrings_iff.2 ⟨hosts, hhosts, rfl⟩
        refine ⟨paths, hlist, hnames, each, heach, ?_⟩
        rw [hflat]
        exact hmoves
    · rw [if_neg hgroup, if_neg hgroup]
      simp [eq_comm]

/-- Discovery succeeds if the directory of groups is legible and what its groups bring can be brought. -/
theorem discover_eq_ok_iff {hostsDir : Path} {r : Registry} :
    (discover fs root hostsDir parse).outcome = .ok r ↔ Legible fs hostsDir ∧
      ∃ each, List.Forall₂ (GroupBrings parse fs root) (groupDirs fs hostsDir) each ∧
        each.flatten.foldlM Move.apply {} = .ok r := by
  rw [discover, Logged.outcome_bind, bind_eq_ok_iff]
  simp only [Logged.of, listing_eq_ok_iff, Logged.outcome_foldlM, foldlM_visit_eq_ok_iff visitGroup_eq_ok_iff]
  constructor
  · rintro ⟨paths, hlist, hnames, hmoves⟩
    rw [Legible, groupDirs, entries_of_list hlist]
    exact ⟨⟨⟨paths, hlist⟩, hnames⟩, hmoves⟩
  · rintro ⟨⟨⟨paths, hlist⟩, hnames⟩, hmoves⟩
    rw [groupDirs, entries_of_list hlist] at hmoves
    rw [entries_of_list hlist] at hnames
    exact ⟨paths, hlist, hnames, hmoves⟩

/-! ### Groups and hosts one by one -/

theorem exists_groupBrings_iff {dir : Path} (hname : dir.textName?.isSome) :
    (∃ moves, GroupBrings parse fs root dir moves) ↔ Legible fs dir ∧ ∀ path ∈ hostFiles fs dir, Described parse fs path := by
  obtain ⟨group, hgroup⟩ := Option.isSome_iff_exists.1 hname
  have hnamed : Legible fs dir → ∀ path ∈ hostFiles fs dir, path.textName?.isSome :=
    fun hlegible path hpath => hlegible.2 path (List.mem_of_mem_filter hpath)
  constructor
  · rintro ⟨moves, hlegible, group', hosts, -, hhosts, -⟩
    refine ⟨hlegible, fun path hpath => ?_⟩
    exact (exists_stands_iff (hnamed hlegible path hpath) group').1 (List.exists_forall₂_iff.1 ⟨hosts, hhosts⟩ path hpath)
  · rintro ⟨hlegible, hdescribed⟩
    obtain ⟨hosts, hhosts⟩ : ∃ hosts, List.Forall₂ (Stands parse fs root group) (hostFiles fs dir) hosts :=
      List.exists_forall₂_iff.2 fun path hpath =>
        (exists_stands_iff (hnamed hlegible path hpath) group).2 (hdescribed path hpath)
    exact ⟨_, hlegible, group, hosts, hgroup, hhosts, rfl⟩

/-- A host is as its file says, in the group of its directory. -/
def StandsAt (parse : HostFile.Parser) (fs : FileSystem) (root : Path) (site : Path × Path) (host : Host) : Prop :=
  ∃ group, site.1.textName? = some group ∧ Stands parse fs root group site.2 host

theorem forall₂_standsAt {dirs : List Path} {each : List (List Move)} (h : List.Forall₂ (GroupBrings parse fs root) dirs each) :
    List.Forall₂ (StandsAt parse fs root) (dirs.flatMap fun dir => (hostFiles fs dir).map (dir, ·))
      (Move.hosts each.flatten) := by
  induction h with
  | nil => exact .nil
  | @cons dir moves _ _ hfirst _ ih =>
    obtain ⟨-, group, hosts, hgroup, hhosts, rfl⟩ := hfirst
    have hdir : List.Forall₂ (StandsAt parse fs root) ((hostFiles fs dir).map (dir, ·)) hosts :=
      List.forall₂_map_left_iff.2 (hhosts.imp fun _ _ hstands => ⟨group, hgroup, hstands⟩)
    rw [List.flatMap_cons, List.flatten_cons, Move.hosts_append]
    refine List.rel_append ?_ ih
    rw [← List.singleton_append, Move.hosts_append, Move.hosts_map_host]
    exact hdir

theorem mem_groupName_iff {dirs : List Path} {each : List (List Move)} (h : List.Forall₂ (GroupBrings parse fs root) dirs each)
    (group : String) : group ∈ each.flatten.map Move.groupName ↔ group ∈ dirs.filterMap Path.textName? := by
  induction h with
  | nil => simp
  | cons hfirst _ ih =>
    obtain ⟨-, own, hosts, hown, hhosts, rfl⟩ := hfirst
    have hhome : ∀ host ∈ hosts, host.group = own := by
      intro host hhost
      obtain ⟨path, hstands⟩ := List.exists_forall₂_iff.1 ⟨_, hhosts.flip⟩ host hhost
      exact hstands.group
    rw [List.flatten_cons, List.map_append, List.mem_append, ih, List.filterMap_cons_some hown, List.mem_cons]
    refine or_congr_left ?_
    simp only [List.map_cons, List.map_map, List.mem_cons, List.mem_map, Function.comp_apply, Move.groupName]
    constructor
    · rintro (rfl | ⟨host, hhost, rfl⟩)
      · rfl
      · exact hhome host hhost
    · exact .inl

/-- Hosts have the names that their files have for stems, so they are as distinct as these. -/
theorem nodup_stem?_iff {sites : List (Path × Path)} {hosts : List Host}
    (h : List.Forall₂ (StandsAt parse fs root) sites hosts) :
    (sites.map fun site => site.2.stem?).Nodup ↔ (hosts.map Host.name).Nodup := by
  let read : Option FileName → String := fun stem => (stem.bind Utf8.decode?).getD ""
  have hnames : hosts.map Host.name = (sites.map fun site => site.2.stem?).map read := by
    induction h with
    | nil => rfl
    | cons hfirst _ ih =>
      obtain ⟨group, -, hstands⟩ := hfirst
      simp [read, hstands.name, ih]
  have hread : ∀ stem ∈ sites.map fun site => site.2.stem?,
      ∃ octets, stem = some octets ∧ Utf8.decode? octets = some (read stem) := by
    intro stem hstem
    obtain ⟨site, hsite, rfl⟩ := List.mem_map.1 hstem
    obtain ⟨host, group, -, hstands⟩ := List.exists_forall₂_iff.1 ⟨hosts, h⟩ site hsite
    obtain ⟨octets, hoctets, hdecode⟩ := Option.bind_eq_some_iff.1 hstands.name
    exact ⟨octets, hoctets, by simp [read, hoctets, hdecode]⟩
  have hinj : ∀ x ∈ sites.map fun site => site.2.stem?, ∀ y ∈ sites.map fun site => site.2.stem?,
      read x = read y → x = y := by
    intro x hx y hy heq
    obtain ⟨octets, rfl, hdecode⟩ := hread x hx
    obtain ⟨octets', rfl, hdecode'⟩ := hread y hy
    rw [heq] at hdecode
    rw [Utf8.decode?_inj hdecode hdecode']
  rw [hnames]
  exact ⟨List.Nodup.map_on hinj, List.Nodup.of_map read⟩

/-- Discovery is exact, whatever reads the descriptions of hosts. It succeeds exactly if the directory of groups and its visible groups can be listed, all names in
them are text, the descriptions of hosts can be read, and no two files of hosts have one stem. Then there is one host for
each file, as the file says, and one group for each visible directory, with the names of its hosts in the order of their
files. -/
theorem discover_exact (parse : HostFile.Parser) (fs : FileSystem) (root hostsDir : Path) :
    ((∃ r, (discover fs root hostsDir parse).outcome = .ok r) ↔ Discoverable parse fs hostsDir) ∧
    ∀ r, (discover fs root hostsDir parse).outcome = .ok r →
      ∃ hosts, List.Forall₂ (StandsAt parse fs root) (sites fs hostsDir) hosts ∧ r.toList.Perm hosts ∧
        ∀ group, r.groups.get? group =
          if group ∈ (groupDirs fs hostsDir).filterMap Path.textName? then
            some ((hosts.filter fun host => host.group = group).map Host.name)
          else none := by
  refine ⟨⟨?_, fun h => ?_⟩, fun r hr => ?_⟩
  · rintro ⟨r, hr⟩
    obtain ⟨hlegible, each, heach, hmoves⟩ := discover_eq_ok_iff.1 hr
    have hnamed : ∀ dir ∈ groupDirs fs hostsDir, dir.textName?.isSome :=
      fun dir hdir => hlegible.2 dir (List.mem_of_mem_filter hdir)
    have hgroups : ∀ dir ∈ groupDirs fs hostsDir, Legible fs dir ∧ ∀ path ∈ hostFiles fs dir, Described parse fs path :=
      fun dir hdir => (exists_groupBrings_iff (hnamed dir hdir)).1 (List.exists_forall₂_iff.1 ⟨each, heach⟩ dir hdir)
    refine ⟨List.forall_mem_cons.2 ⟨hlegible, fun dir hdir => (hgroups dir hdir).1⟩, fun site hsite => ?_, ?_⟩
    · obtain ⟨dir, hdir, hmem⟩ := List.mem_flatMap.1 hsite
      obtain ⟨path, hpath, rfl⟩ := List.mem_map.1 hmem
      exact (hgroups dir hdir).2 path hpath
    · exact (nodup_stem?_iff (forall₂_standsAt heach)).2 ((holds_empty.foldlM_apply hmoves).nodup)
  · obtain ⟨hlegible, hgroups⟩ := List.forall_mem_cons.1 h.legible
    have hnamed : ∀ dir ∈ groupDirs fs hostsDir, dir.textName?.isSome :=
      fun dir hdir => hlegible.2 dir (List.mem_of_mem_filter hdir)
    obtain ⟨each, heach⟩ : ∃ each, List.Forall₂ (GroupBrings parse fs root) (groupDirs fs hostsDir) each := by
      refine List.exists_forall₂_iff.2 fun dir hdir => (exists_groupBrings_iff (hnamed dir hdir)).2 ⟨hgroups dir hdir, ?_⟩
      intro path hpath
      exact h.described (dir, path) (List.mem_flatMap.2 ⟨dir, hdir, List.mem_map_of_mem hpath⟩)
    obtain ⟨r, hmoves⟩ := (holds_empty.exists_foldlM_apply_iff each.flatten).2
      ((nodup_stem?_iff (forall₂_standsAt heach)).1 h.distinct)
    exact ⟨r, discover_eq_ok_iff.2 ⟨hlegible, each, heach, hmoves⟩⟩
  · obtain ⟨-, each, heach, hmoves⟩ := discover_eq_ok_iff.1 hr
    have hholds : r.Holds each.flatten := holds_empty.foldlM_apply hmoves
    refine ⟨_, forall₂_standsAt heach, hholds.toList, fun group => ?_⟩
    rw [hholds.groups]
    simp only [mem_groupName_iff heach]

/-- A group without hosts and one with three, among entries that are passed over. -/
def yard : FileTree :=
  let unreadable := FileTree.file (.error 13)
  let web := FileTree.dir none
    [(Utf8.encode ".draft", unreadable), (Utf8.encode "a.b.nix", unreadable), (Utf8.encode "a.nix", unreadable),
      (Utf8.encode "b.toml", .file (.ok (Utf8.encode "system = 'aarch64-linux'"))), (Utf8.encode "old", .dir (some 13) [])]
  .dir none
    [(Utf8.encode "hosts", .dir none
      [(Utf8.encode ".git", .dir (some 13) []), (Utf8.encode "README", unreadable), (Utf8.encode "edge", .empty),
        (Utf8.encode "web", web)])]

theorem discover_yard_exact :
    ∃ r, (discover yard.lexical "/" "/hosts").outcome = .ok r ∧ Discoverable HostFile.parse yard.lexical "/hosts" ∧
      ∃ hosts, List.Forall₂ (StandsAt HostFile.parse yard.lexical "/") (sites yard.lexical "/hosts") hosts ∧ r.toList.Perm hosts ∧
        ∀ group, r.groups.get? group =
          if group ∈ (groupDirs yard.lexical "/hosts").filterMap Path.textName? then
            some ((hosts.filter fun host => host.group = group).map Host.name)
          else none := by
  have hok : (discover yard.lexical "/" "/hosts").outcome.toOption.isSome := by decide +kernel
  cases hr : (discover yard.lexical "/" "/hosts").outcome with
  | error e => simp [hr, Except.toOption] at hok
  | ok r =>
    obtain ⟨hiff, hexact⟩ := discover_exact HostFile.parse yard.lexical "/" "/hosts"
    exact ⟨r, rfl, hiff.1 ⟨r, hr⟩, hexact r hr⟩

example : ((discover yard.lexical "/" "/hosts").outcome.toOption.map fun r => (r.toList, r.groups.entries)) =
    some ([⟨"a", "web", ["hosts/web/a.nix"], none, "/hosts/web/a.nix"⟩,
      ⟨"a.b", "web", ["hosts/web/a.b.nix"], none, "/hosts/web/a.b.nix"⟩,
      ⟨"b", "web", [], some ⟨"aarch64-linux"⟩, "/hosts/web/b.toml"⟩],
      [("edge", []), ("web", ["a.b", "a", "b"])]) := by
  decide +kernel

end Registry

end HostFleet
