import HostFleet.Fleet.Validation
import HostFleet.Proofs.FileSystem.Tree
import HostFleet.Proofs.Registry.Discovery

/-!
# Where references to hosts lead

A host that is defined by a file that is no description has that file as its module, named from the root of the fleet. The
name is made of the names in the path of the file and of nothing else. So it leads back to the file exactly if the path to
the directory of groups never goes up from a name and is text, and then the file is not reported as missing.
-/

namespace HostFleet

namespace Path

/-- A path goes down from a root name by name, and its names are text. -/
structure Straight (root dir : Path) : Prop where
  down : (root.join dir).normal = root.normal ++ dir.names
  legible : ∀ n ∈ dir.names, (Utf8.decode? n).isSome

theorem straight_of_no_up (root : Path) {dir : Path} (hdir : dir.isAbsolute = false) (hup : up ∉ dir.parts)
    (hlegible : ∀ n ∈ dir.names, (Utf8.decode? n).isSome) : Straight root dir := by
  refine ⟨?_, hlegible⟩
  have hsolid : up ∉ dir.solid := fun hmem => hup (List.mem_of_mem_filter hmem)
  rw [normal_join root hdir, foldl_step_of_no_up hsolid, filter_solid]

/-- Names that were written as text stand for the place of a path only if the path is straight. -/
theorem straight_iff {root dir : Path} (hdir : dir.isAbsolute = false) :
    (root.join dir).normal = (root.normal ++ dir.names.map fun n => Utf8.encode (Utf8.decodeLossy n)) ↔
      Straight root dir := by
  constructor
  · intro h
    have hlength := congrArg List.length h
    rw [List.length_append, List.length_map, ← filter_solid, normal_join root hdir] at hlength
    have hdown : (root.join dir).normal = root.normal ++ dir.names := by
      rw [normal_join root hdir, foldl_step_eq_of_length hlength, filter_solid]
    refine ⟨hdown, fun n hn => ?_⟩
    rw [hdown, List.append_cancel_left_eq] at h
    have hsame : Utf8.encode (Utf8.decodeLossy n) = n := by
      have hid : dir.names.map (fun n => Utf8.encode (Utf8.decodeLossy n)) = dir.names.map id := by
        rw [← h, List.map_id]
      exact List.map_inj_left.1 hid n hn
    exact (Utf8.encode_decodeLossy_eq_iff n).1 hsame
  · intro h
    rw [h.down, List.append_cancel_left_eq]
    refine (List.map_id _).symm.trans (List.map_inj_left.2 fun n hn => ?_)
    exact ((Utf8.encode_decodeLossy_eq_iff n).2 (h.legible n hn)).symm

section Files

variable {root dir : Path} {group name : FileName}

theorem reference_file (hdir : dir.isAbsolute = false) (hgroup : IsName group) (hname : IsName name) :
    (((root.join dir).join ⟨group⟩).join ⟨name⟩).reference root =
      "/".intercalate ((dir.names ++ [group, name]).map Utf8.decodeLossy) := by
  obtain ⟨rest, hrest, hnames⟩ := components_join root hdir
  have hcomponents : (((root.join dir).join ⟨group⟩).join ⟨name⟩).components =
      root.components ++ (rest ++ [.name group, .name name]) := by
    rw [components_join_name _ hname, components_join_name _ hgroup, hrest, List.append_assoc, List.append_assoc]
    rfl
  rw [reference_of_components hcomponents, List.filterMap_append, hnames]
  rfl

/-- The reference to a file leads to it exactly if the path to the directory of groups is straight. -/
theorem normal_join_reference_iff (hdir : dir.isAbsolute = false) (hgroup : IsName group) (hname : IsName name)
    (hgroupText : (Utf8.decode? group).isSome) (hnameText : (Utf8.decode? name).isSome) :
    let file := ((root.join dir).join ⟨group⟩).join ⟨name⟩
    (root.join (ofText (file.reference root))).normal = file.normal ↔ Straight root dir := by
  intro file
  have hnames : ∀ n ∈ dir.names ++ [group, name], IsName n := by
    intro n hn
    rcases List.mem_append.1 hn with hn | hn
    · exact isName_of_mem_names hn
    · rcases List.mem_pair.1 hn with rfl | rfl
      · exact hgroup
      · exact hname
  have hends : [group, name].map (fun n => Utf8.encode (Utf8.decodeLossy n)) = [group, name] := by
    simp only [List.map_cons, List.map_nil, (Utf8.encode_decodeLossy_eq_iff _).2 hgroupText,
      (Utf8.encode_decodeLossy_eq_iff _).2 hnameText]
  have hfile : file.normal = (root.join dir).normal ++ [group, name] := by
    rw [normal_join_name _ hname, normal_join_name _ hgroup, List.append_assoc]
    rfl
  rw [reference_file hdir hgroup hname, normal_join_intercalate root (by simp) hnames, List.map_append, hends, hfile,
    ← List.append_assoc, List.append_cancel_right_eq, ← straight_iff hdir]
  exact eq_comm

end Files

end Path

namespace Definition

theorem hostPlace_injective {host other : Host} (h : hostPlace host = hostPlace other) : host.name = other.name := by
  have hlist := congrArg String.toList h
  rw [hostPlace, hostPlace, String.toList_append, String.toList_append, List.append_cancel_left_eq] at hlist
  exact String.toList_injective hlist

theorem hostPlace_ne_fileName (host : Host) : hostPlace host ≠ Settings.fileName := by
  intro h
  have hlist := congrArg (fun s => s.toList.head?) h
  rw [hostPlace, String.toList_append] at hlist
  exact absurd hlist (by simp [Settings.fileName])

/-- A warning about a missing file of a host is about a module of that host. -/
theorem missing_of_place {d : Definition} {fs : FileSystem} {host : Host} (hhost : host ∈ d.registry.toList) {w : Warning}
    (hw : w ∈ d.missingModules fs) (hplace : w.place = hostPlace host) :
    w.item ∈ host.modules ∧ fs.has (d.root.join w.item) = false := by
  obtain ⟨⟨place, m⟩, hnamed, rfl⟩ := List.mem_map.1 hw
  obtain ⟨hmem, htest⟩ := List.mem_filter.1 hnamed
  obtain rfl : place = hostPlace host := hplace
  have hmissing : fs.has (d.root.join m) = false := by
    simpa using (Bool.and_eq_true_iff.1 htest).2
  refine ⟨?_, hmissing⟩
  rcases List.mem_append.1 hmem with hcommon | hown
  · obtain ⟨_, -, heq⟩ := List.mem_map.1 hcommon
    exact absurd (Prod.mk.inj heq).1.symm (hostPlace_ne_fileName host)
  · obtain ⟨other, hother, hmodule⟩ := List.mem_flatMap.1 hown
    obtain ⟨m', hm', heq⟩ := List.mem_map.1 hmodule
    obtain ⟨hsame, rfl⟩ := Prod.mk.inj heq
    have hget := (d.registry.mem_toList_iff other).1 hother
    rw [hostPlace_injective hsame, (d.registry.mem_toList_iff host).1 hhost] at hget
    obtain rfl := Option.some.inj hget
    exact hm'

end Definition

namespace Registry

theorem exists_site_of_discover {parse : HostFile.Parser} {fs : FileSystem} {root hostsDir : Path} {r : Registry}
    (hr : (discover fs root hostsDir parse).outcome = .ok r) {host : Host} (hhost : host ∈ r.toList) :
    ∃ dir ∈ groupDirs fs hostsDir, ∃ path ∈ hostFiles fs dir, dir.textName?.isSome ∧ path.textName?.isSome ∧
      ∃ group, Stands parse fs root group path host := by
  obtain ⟨hlegible, each, heach, hmoves⟩ := discover_eq_ok_iff.1 hr
  have hlisted : host ∈ Move.hosts each.flatten := (holds_empty.foldlM_apply hmoves).toList.mem_iff.1 hhost
  have hsites := (List.forall₂_and_left _ _).2 ⟨fun site (hsite : site ∈ sites fs hostsDir) => hsite, forall₂_standsAt heach⟩
  obtain ⟨⟨dir, path⟩, hsite, group, hgroup, hstands⟩ := List.exists_forall₂_iff.1 ⟨_, hsites.flip⟩ host hlisted
  obtain ⟨dir', hdir, hentry⟩ := List.mem_flatMap.1 hsite
  obtain ⟨path', hpath, heq⟩ := List.mem_map.1 hentry
  obtain ⟨rfl, rfl⟩ := Prod.mk.inj heq
  obtain ⟨moves, hbrings⟩ := List.exists_forall₂_iff.1 ⟨each, heach⟩ dir' hdir
  have htext : path'.textName?.isSome := hbrings.1.2 path' (List.mem_of_mem_filter hpath)
  exact ⟨dir', hdir, path', hpath, Option.isSome_of_eq_some hgroup, htext, group, hstands⟩

theorem exists_child_of_mem_entries {tree : FileTree} {dir path : Path} (hpath : path ∈ entries tree.lexical dir) :
    ∃ t, tree.descend dir.normal = .ok t ∧ ∃ c ∈ t.children, path = dir.join ⟨c.1⟩ := by
  cases hlist : tree.lexical.list dir with
  | error fault => simp [entries, hlist, Except.toOption] at hpath
  | ok paths =>
    rw [entries_of_list hlist] at hpath
    exact FileTree.exists_child_of_list hlist hpath

/-- In a proper tree, what is listed is there, under the name that its path ends with. -/
theorem exists_name_of_mem_entries {tree : FileTree} (hproper : tree.Proper) {dir path : Path}
    (hpath : path ∈ entries tree.lexical dir) :
    ∃ n, Path.IsName n ∧ path = dir.join ⟨n⟩ ∧ path.textName? = Utf8.decode? n ∧ tree.lexical.has path = true := by
  obtain ⟨t, hplace, c, hc, rfl⟩ := exists_child_of_mem_entries hpath
  obtain ⟨hname, -, hfound⟩ := hproper.descend_join hplace hc
  refine ⟨c.1, hname, rfl, ?_, FileTree.has_lexical.2 ⟨c.2, hfound⟩⟩
  rw [Path.textName?, Path.fileName?_join dir hname]
  rfl

theorem modules_of_stands {parse : HostFile.Parser} {fs : FileSystem} {root path : Path} {group : String} {host : Host}
    (h : Stands parse fs root group path host) (hfile : isDescription path = false) : host.modules = [path.reference root] := by
  obtain ⟨said, hsaid, hmodules, -⟩ := h.content
  rw [Says, if_neg (by simpa [isDescription] using hfile)] at hsaid
  rw [hmodules, hsaid]

/-- A host whose file is no description has one module, the reference to its file. It leads back to the file exactly if the
path from the root to the directory of groups is straight, as it is if it is text and never goes up. Then the file is not
reported as missing. Paths are read from the top of the tree, where going up leads nowhere: the root may be the top, but
nothing lies above it. -/
theorem reference_leads_back (parse : HostFile.Parser) (tree : FileTree) (hproper : tree.Proper) (root hostsDir : Path)
    (hrelative : hostsDir.isAbsolute = false) (r : Registry)
    (hr : (discover tree.lexical root (root.join hostsDir) parse).outcome = .ok r) (host : Host) (hhost : host ∈ r.toList)
    (hfile : isDescription host.file = false) :
    (∃ reference : ModuleRef, host.modules = [reference] ∧
      ((root.join reference).normal = host.file.normal ↔ Path.Straight root hostsDir)) ∧
    (Path.up ∉ hostsDir.parts → (∀ n ∈ hostsDir.names, (Utf8.decode? n).isSome) → Path.Straight root hostsDir) ∧
    (Path.Straight root hostsDir → ∀ d : Definition, d.root = root → d.registry = r →
      ∀ w ∈ d.missingModules tree.lexical, w.place ≠ Definition.hostPlace host) := by
  obtain ⟨dir, hdir, path, hpath, hdirText, hpathText, group, hstands⟩ := exists_site_of_discover hr hhost
  obtain ⟨g, hg, rfl, hgText, -⟩ := exists_name_of_mem_entries hproper (List.mem_of_mem_filter hdir)
  obtain ⟨n, hn, rfl, hnText, hhas⟩ := exists_name_of_mem_entries hproper (List.mem_of_mem_filter hpath)
  rw [hgText] at hdirText
  rw [hnText] at hpathText
  rw [hstands.file] at hfile ⊢
  have hmodules := modules_of_stands hstands hfile
  have hleads := @Path.normal_join_reference_iff root hostsDir g n hrelative hg hn hdirText hpathText
  refine ⟨⟨_, hmodules, hleads⟩, Path.straight_of_no_up root hrelative, ?_⟩
  intro hstraight d hroot hregistry w hw hplace
  subst hroot hregistry
  obtain ⟨hitem, hmissing⟩ := Definition.missing_of_place hhost hw hplace
  rw [hmodules, List.mem_singleton] at hitem
  obtain ⟨t, hfound⟩ := FileTree.has_lexical.1 hhas
  have hthere : tree.lexical.has (d.root.join w.item) = true := by
    rw [hitem]
    exact FileTree.has_lexical.2 ⟨t, by rw [hleads.2 hstraight, hfound]⟩
  rw [hmissing] at hthere
  exact Bool.false_ne_true hthere

/-- A root with hosts, one by a description and two by other files, in a directory below a site. The other site is empty. -/
def site : FileTree :=
  let file := FileTree.file (.ok (Utf8.encode ""))
  (((FileTree.empty.insert (["fleet", "east", "hosts", "web", "www.nix"].map Utf8.encode) file).insert
    (["fleet", "east", "hosts", "web", "api.toml"].map Utf8.encode) file).insert
    (["fleet", "east", "hosts", "mail", "mx.d.nix"].map Utf8.encode) (.file (.error 13))).insert
    (["fleet", "west"].map Utf8.encode) .empty

theorem proper_site : site.Proper :=
  (((FileTree.proper_empty.insert (.file _) (by decide)).insert (.file _) (by decide)).insert (.file _) (by decide)).insert
    FileTree.proper_empty (by decide)

/-- The hosts of the site as they are found through a path to their directory. -/
def siteHosts (hostsDir : Path) : Registry :=
  (discover site.lexical "fleet" (Path.join "fleet" hostsDir)).outcome.toOption.getD {}

theorem discover_site {hostsDir : Path}
    (h : (discover site.lexical "fleet" (Path.join "fleet" hostsDir)).outcome.toOption.isSome) :
    (discover site.lexical "fleet" (Path.join "fleet" hostsDir)).outcome = .ok (siteHosts hostsDir) := by
  cases hr : (discover site.lexical "fleet" (Path.join "fleet" hostsDir)).outcome with
  | error fault => simp [hr, Except.toOption] at h
  | ok r =>
    rw [siteHosts, hr]
    rfl

/-- A host of the site, found through a path to the directory of its group. -/
def mailHost (hostsDir : String) (reference : ModuleRef) : Host :=
  ⟨"mx.d", "mail", [reference], none, .ofText ("fleet/" ++ hostsDir ++ "/mail/mx.d.nix")⟩

theorem site_reference_leads_back :
    (∃ reference, (mailHost ".//east/./hosts" "east/hosts/mail/mx.d.nix").modules = [reference] ∧
      (Path.join "fleet" reference).normal = (mailHost ".//east/./hosts" "east/hosts/mail/mx.d.nix").file.normal) ∧
    ∀ w ∈ (Definition.mk "fleet" {} (siteHosts ".//east/./hosts") {} []).missingModules site.lexical,
      w.place ≠ "host mx.d" := by
  have hr := @discover_site ".//east/./hosts" (by decide +kernel)
  obtain ⟨⟨reference, hmodules, hleads⟩, hdown, hfound⟩ := reference_leads_back HostFile.parse site proper_site "fleet" ".//east/./hosts"
    (by decide) _ hr (mailHost ".//east/./hosts" "east/hosts/mail/mx.d.nix") (by decide +kernel) (by decide +kernel)
  have hstraight := hdown (by decide +kernel) (by decide +kernel)
  exact ⟨⟨reference, hmodules, hleads.2 hstraight⟩, hfound hstraight _ rfl rfl⟩

/-- Through a path that goes up from a directory the hosts are found as well, but their modules are not. -/
theorem detour_leads_astray :
    site.lexical.isDir "fleet/west" = true ∧
    (Path.join "fleet" "west/../east/hosts").normal = (Path.ofText "fleet").normal ++ (Path.ofText "east/hosts").names ∧
    (discover site.lexical "fleet" (Path.join "fleet" "west/../east/hosts")).outcome =
      .ok (siteHosts "west/../east/hosts") ∧
    mailHost "west/../east/hosts" "west/east/hosts/mail/mx.d.nix" ∈ (siteHosts "west/../east/hosts").toList ∧
    (Path.join "fleet" "west/east/hosts/mail/mx.d.nix").normal ≠
      (mailHost "west/../east/hosts" "west/east/hosts/mail/mx.d.nix").file.normal ∧
    ⟨"host mx.d", "west/east/hosts/mail/mx.d.nix", "module file does not exist"⟩ ∈
      (Definition.mk "fleet" {} (siteHosts "west/../east/hosts") {} []).missingModules site.lexical := by
  refine ⟨by decide +kernel, by decide +kernel, discover_site (by decide +kernel), by decide +kernel, by decide +kernel, by decide +kernel⟩

end Registry

end HostFleet
