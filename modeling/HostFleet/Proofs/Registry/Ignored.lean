import HostFleet.Proofs.Registry.Reference

/-!
# What discovery does not depend on

Entries that discovery passes over may be left out, and files that are no descriptions may hold anything. Two walks are
compared, one over all entries and one over those that are kept. They come out alike, unless the first one stops at the name
of an entry that is left out: names are read before entries are passed over.
-/

namespace HostFleet

/-! ### Outcomes that are alike -/

/-- A result is the same as another one, unless that is a fault of some kind. -/
def SameUnless {ε α : Type} (blamed : ε → Prop) (x' x : Except ε α) : Prop := x' = x ∨ ∃ e, blamed e ∧ x = .error e

namespace SameUnless

variable {ε α σ : Type} {blamed : ε → Prop}

theorem bind {x' x : Except ε α} {next' next : α → Except ε σ} (h : SameUnless blamed x' x)
    (hnext : ∀ a, SameUnless blamed (next' a) (next a)) : SameUnless blamed (x' >>= next') (x >>= next) := by
  rcases h with rfl | ⟨e, hblamed, rfl⟩
  · cases x' with
    | error e => exact .inl rfl
    | ok a => exact hnext a
  · exact .inr ⟨e, hblamed, rfl⟩

/-- A walk that leaves out elements at which nothing happens. -/
theorem foldlM_filter {visit' visit : σ → α → Except ε σ} {keep : α → Bool} {l : List α}
    (hgone : ∀ a ∈ l, keep a = false → ∀ s, SameUnless blamed (.ok s) (visit s a))
    (hkept : ∀ a ∈ l, keep a = true → ∀ s, SameUnless blamed (visit' s a) (visit s a)) (s : σ) :
    SameUnless blamed ((l.filter keep).foldlM visit' s) (l.foldlM visit s) := by
  induction l generalizing s with
  | nil => exact .inl rfl
  | cons a rest ih =>
    obtain ⟨hgone, hgoneRest⟩ := List.forall_mem_cons.1 hgone
    obtain ⟨hkept, hkeptRest⟩ := List.forall_mem_cons.1 hkept
    rw [List.foldlM_cons]
    by_cases hkeep : keep a = true
    · rw [List.filter_cons_of_pos hkeep, List.foldlM_cons]
      exact (hkept hkeep s).bind (ih hgoneRest hkeptRest)
    · rw [List.filter_cons_of_neg hkeep]
      exact (hgone (by simpa using hkeep) s).bind (ih hgoneRest hkeptRest)

end SameUnless

namespace Registry

/-! ### What is passed over -/

/-- Whether an entry counts for nothing where directories, or else files, are looked for. -/
def idle (dirs : Bool) (c : FileName × FileTree) : Bool := c.1.head? = some Path.dot || c.2.isDir != dirs

/-- How a directory of groups may differ from another one: which idle entries are left out of it, and what the files hold
that are no descriptions. Entries are given by the names that lead to them. -/
structure Variation where
  gone : List FileName → Bool
  content : List FileName → Except Int (List UInt8)

namespace Variation

variable (v : Variation)

/-- What becomes of an entry of a group. -/
def host (group : FileName) (c : FileName × FileTree) : FileTree :=
  if c.2.isDir ∨ (Path.divide c.1).2 = some (Utf8.encode "toml") then c.2 else .file (v.content [group, c.1])

/-- What becomes of an entry of the directory of groups. -/
def group (c : FileName × FileTree) : FileTree :=
  c.2.revise (fun e => !(v.gone [c.1, e.1] && idle false e)) (v.host c.1)

def hosts : FileTree → FileTree := FileTree.revise (fun c => !(v.gone [c.1] && idle true c)) v.group

/-- A tree with another directory of groups. -/
def vary (tree : FileTree) (hostsDir : Path) : FileTree := tree.modify v.hosts hostsDir.normal

theorem isDir_host (group : FileName) (c : FileName × FileTree) : (v.host group c).isDir = c.2.isDir := by
  rw [host]
  split
  · rfl
  · rename_i h
    exact (Bool.eq_false_iff.2 (not_or.1 h).1).symm

theorem proper_vary {tree : FileTree} (hproper : tree.Proper) (hostsDir : Path) : (v.vary tree hostsDir).Proper := by
  refine hproper.modify (fun t ht => ht.revise fun c hc => hc.revise fun e he => ?_) _
  rw [host]
  split
  · exact he
  · exact .file _

end Variation

def lookedAt (fs : FileSystem) (hostsDir : Path) : List Path :=
  entries fs hostsDir ++ (groupDirs fs hostsDir).flatMap (entries fs)

/-! ### One entry -/

variable {parse : HostFile.Parser} {fs fs' : FileSystem} {root : Path}

theorem loadHost_congr {path : Path} (h : isDescription path = true → fs'.read path = fs.read path) (group : String) :
    loadHost parse fs' root group path = loadHost parse fs root group path := by
  rw [loadHost, loadHost]
  by_cases hfile : isDescription path = true
  · simp only [hfile, describe, h hfile]
  · rw [Bool.not_eq_true] at hfile
    simp only [hfile, Bool.false_eq_true, if_false]

theorem visitEntry_congr {path : Path} (hdir : fs'.isDir path = fs.isDir path)
    (hread : isDescription path = true → fs'.read path = fs.read path) (group : String) (r : Registry) :
    (visitEntry parse fs' root group r path).outcome = (visitEntry parse fs root group r path).outcome := by
  cases htext : path.textName? with
  | none => rw [outcome_visitEntry_of_none htext, outcome_visitEntry_of_none htext]
  | some name =>
    rw [outcome_visitEntry htext, outcome_visitEntry htext, loadHost_congr hread, isHostFile, isHostFile, hdir]

section Entries

variable {tree : FileTree} {p : Path} {c : FileName × FileTree}

theorem isVisible_join (hname : Path.IsName c.1) : (p.join ⟨c.1⟩).isVisible = !decide (c.1.head? = some Path.dot) := by
  rw [Path.isVisible, Path.fileName?_join p hname]
  exact decide_not

theorem isGroup_join (hname : Path.IsName c.1) (h : tree.descend (p.join ⟨c.1⟩).normal = .ok c.2) :
    isGroup tree.lexical (p.join ⟨c.1⟩) = !idle true c := by
  rw [isGroup, isVisible_join hname, FileTree.isDir_lexical h, idle, Bool.not_or]
  cases c.2.isDir <;> rfl

theorem isHostFile_join (hname : Path.IsName c.1) (h : tree.descend (p.join ⟨c.1⟩).normal = .ok c.2) :
    isHostFile tree.lexical (p.join ⟨c.1⟩) = !idle false c := by
  rw [isHostFile, isVisible_join hname, FileTree.isDir_lexical h, idle, Bool.not_or]
  cases c.2.isDir <;> rfl

theorem isDescription_join (hname : Path.IsName c.1) :
    isDescription (p.join ⟨c.1⟩) = decide ((Path.divide c.1).2 = some (Utf8.encode "toml")) := by
  rw [isDescription, Path.extension?, Path.fileName?_join p hname]
  rfl

end Entries

/-! ### The walk over a directory -/

section Walk

variable {tree tree' t : FileTree} {p : Path} {keep : FileName × FileTree → Bool} {change : FileName × FileTree → FileTree}
  {blamed : RegistryFault → Prop} {visit' visit : Registry → Path → Except RegistryFault Registry}

theorem sameUnless_walk (h : tree.descend p.normal = .ok t) (h' : tree'.descend p.normal = .ok (t.revise keep change))
    (hgone : ∀ c ∈ t.children, p.join ⟨c.1⟩ ∈ entries tree.lexical p → keep c = false → ∀ r,
      SameUnless blamed (.ok r) (visit r (p.join ⟨c.1⟩)))
    (hkept : ∀ c ∈ t.children, p.join ⟨c.1⟩ ∈ entries tree.lexical p → keep c = true → ∀ r,
      SameUnless blamed (visit' r (p.join ⟨c.1⟩)) (visit r (p.join ⟨c.1⟩))) (r : Registry) :
    SameUnless blamed (listing tree'.lexical p >>= (·.foldlM visit' r)) (listing tree.lexical p >>= (·.foldlM visit r)) := by
  have hlist := FileTree.list_lexical h
  have hlist' := FileTree.list_lexical h'
  cases t with
  | file content =>
    have hsame : tree'.lexical.list p = tree.lexical.list p := hlist'.trans hlist.symm
    cases content <;> exact .inl (by rw [listing, listing, hsame, hlist]; rfl)
  | dir fault children =>
    cases fault with
    | some code => exact .inl (by rw [listing, listing, hlist, hlist']; rfl)
    | none =>
      have hpaths : tree.lexical.list p = .ok (children.map fun c => p.join ⟨c.1⟩) := by
        rw [hlist]
        show Except.ok ((children.map Prod.fst).map fun n => p.join ⟨n⟩) = _
        rw [List.map_map]
        rfl
      have hpaths' : tree'.lexical.list p = .ok ((children.filter keep).map fun c => p.join ⟨c.1⟩) := by
        rw [hlist']
        show Except.ok ((((children.filter keep).map fun c => (c.1, change c)).map Prod.fst).map fun n => p.join ⟨n⟩) = _
        rw [List.map_map, List.map_map]
        rfl
      have hlisted : ∀ c ∈ children, p.join ⟨c.1⟩ ∈ entries tree.lexical p := by
        intro c hc
        rw [entries_of_list hpaths]
        exact List.mem_map_of_mem hc
      rw [listing_eq_ok_iff.2 hpaths, listing_eq_ok_iff.2 hpaths']
      show SameUnless blamed (List.foldlM visit' r _) (List.foldlM visit r _)
      rw [List.foldlM_map, List.foldlM_map]
      exact SameUnless.foldlM_filter (fun c hc => hgone c hc (hlisted c hc)) (fun c hc => hkept c hc (hlisted c hc)) r

end Walk

/-! ### Two runs -/

theorem outcome_discover (parse : HostFile.Parser) (fs : FileSystem) (root hostsDir : Path) :
    (discover fs root hostsDir parse).outcome =
      listing fs hostsDir >>= (·.foldlM (fun r path => (visitGroup parse fs root r path).outcome) {}) := by
  rw [discover, Logged.outcome_bind]
  simp only [Logged.of, Logged.outcome_foldlM]

/-- An entry is blamed for its name that another tree does not have. -/
def BlamesGone (tree tree' : FileTree) (hostsDir : Path) (fault : RegistryFault) : Prop :=
  ∃ path ∈ lookedAt tree.lexical hostsDir, path.textName? = none ∧ tree'.lexical.has path = false ∧
    fault = .invalidName path

section Runs

variable {tree tree' : FileTree} {hostsDir : Path} (v : Variation)

/-- An entry that is left out may be blamed for its name, but for nothing else. -/
theorem sameUnless_passed {path : Path} {r : Registry} {visited : Except RegistryFault Registry} {fault : IoFault}
    (hlooked : path ∈ lookedAt tree.lexical hostsDir) (hmissing : tree'.descend path.normal = .error fault)
    (hnone : path.textName? = none → visited = .error (.invalidName path))
    (hsome : ∀ name, path.textName? = some name → visited = .ok r) :
    SameUnless (BlamesGone tree tree' hostsDir) (.ok r) visited := by
  cases htext : path.textName? with
  | none => exact .inr ⟨_, ⟨path, hlooked, htext, isOk_eq_false_iff.2 ⟨fault, hmissing⟩, rfl⟩, hnone htext⟩
  | some name => exact .inl (hsome name htext).symm

theorem sameUnless_group (hproper : tree.Proper) {dir : Path} {c : FileName × FileTree}
    (hdir : dir ∈ groupDirs tree.lexical hostsDir) (h : tree.descend dir.normal = .ok c.2)
    (h' : tree'.descend dir.normal = .ok (v.group c)) (group : String) (r : Registry) :
    SameUnless (BlamesGone tree tree' hostsDir)
      (listing tree'.lexical dir >>= (·.foldlM (fun r path => (visitEntry parse tree'.lexical root group r path).outcome) r))
      (listing tree.lexical dir >>= (·.foldlM (fun r path => (visitEntry parse tree.lexical root group r path).outcome) r)) := by
  refine sameUnless_walk h h' (fun e he hlisted hgone r => ?_) (fun e he hlisted hkept r => ?_) r
  · obtain ⟨hname, -, hfound⟩ := hproper.descend_join h he
    have hmissing := hproper.descend_join_revise h h' he
    rw [hgone] at hmissing
    have hlooked : dir.join ⟨e.1⟩ ∈ lookedAt tree.lexical hostsDir :=
      List.mem_append_right _ (List.mem_flatMap.2 ⟨dir, hdir, hlisted⟩)
    have hboth : (v.gone [c.1, e.1] && idle false e) = true := by simpa using hgone
    refine sameUnless_passed hlooked hmissing (fun hnone => outcome_visitEntry_of_none hnone group r) fun name htext => ?_
    rw [outcome_visitEntry htext, isHostFile_join hname hfound, (Bool.and_eq_true_iff.1 hboth).2]
    rfl
  · obtain ⟨hname, -, hfound⟩ := hproper.descend_join h he
    have hthere := hproper.descend_join_revise h h' he
    rw [hkept] at hthere
    refine .inl (visitEntry_congr ?_ (fun hfile => ?_) group r)
    · rw [FileTree.isDir_lexical hthere, FileTree.isDir_lexical hfound, v.isDir_host]
    · rw [isDescription_join hname, decide_eq_true_eq] at hfile
      rw [FileTree.read_lexical hthere, FileTree.read_lexical hfound, Variation.host, if_pos (.inr hfile)]

theorem descend_vary (hproper : tree.Proper) (hostsDir : Path) :
    (v.vary tree hostsDir).descend hostsDir.normal = tree.descend hostsDir.normal >>= fun top => .ok (v.hosts top) := by
  have hplace := @FileTree.descend_modify v.hosts tree hproper hostsDir.normal []
  rw [List.append_nil] at hplace
  exact hplace

theorem sameUnless_vary (parse : HostFile.Parser) (hproper : tree.Proper) (root hostsDir : Path) :
    SameUnless (BlamesGone tree (v.vary tree hostsDir) hostsDir)
      (discover (v.vary tree hostsDir).lexical root hostsDir parse).outcome (discover tree.lexical root hostsDir parse).outcome := by
  rw [outcome_discover, outcome_discover]
  have h' := descend_vary v hproper hostsDir
  cases h : tree.descend hostsDir.normal with
  | error fault =>
    rw [h] at h'
    exact .inl (by rw [listing, listing, FileTree.list_lexical_of_error h, FileTree.list_lexical_of_error h']; rfl)
  | ok top =>
    rw [h] at h'
    refine sameUnless_walk h h' (fun c hc hlisted hgone r => ?_) (fun c hc hlisted hkept r => ?_) {}
    · obtain ⟨hname, -, hfound⟩ := hproper.descend_join h hc
      have hmissing := hproper.descend_join_revise h h' hc
      rw [hgone] at hmissing
      have hboth : (v.gone [c.1] && idle true c) = true := by simpa using hgone
      refine sameUnless_passed (List.mem_append_left _ hlisted) hmissing (fun hnone => outcome_visitGroup_of_none hnone r)
        fun name htext => ?_
      rw [outcome_visitGroup htext, isGroup_join hname hfound, (Bool.and_eq_true_iff.1 hboth).2]
      rfl
    · obtain ⟨hname, -, hfound⟩ := hproper.descend_join h hc
      have hthere := hproper.descend_join_revise h h' hc
      rw [hkept] at hthere
      cases htext : (hostsDir.join ⟨c.1⟩).textName? with
      | none => exact .inl (by rw [outcome_visitGroup_of_none htext, outcome_visitGroup_of_none htext])
      | some group =>
        have hsame : isGroup (v.vary tree hostsDir).lexical (hostsDir.join ⟨c.1⟩) =
            isGroup tree.lexical (hostsDir.join ⟨c.1⟩) := by
          rw [isGroup, isGroup, FileTree.isDir_lexical hthere, FileTree.isDir_lexical hfound, Variation.group,
            FileTree.isDir_revise]
        rw [outcome_visitGroup htext, outcome_visitGroup htext, hsame]
        by_cases hgroup : isGroup tree.lexical (hostsDir.join ⟨c.1⟩) = true
        · simp only [if_pos hgroup, Logged.outcome_foldlM]
          exact sameUnless_group v hproper (List.mem_filter.2 ⟨hlisted, hgroup⟩) hfound hthere group (r.addGroup group)
        · rw [if_neg hgroup, if_neg hgroup]
          exact .inl rfl

/-- If no entry is left out, all that was looked at is still there. -/
theorem has_vary (hproper : tree.Proper) (hnone : ∀ names, v.gone names = false) {path : Path}
    (hpath : path ∈ lookedAt tree.lexical hostsDir) : (v.vary tree hostsDir).lexical.has path = true := by
  have hgroup : ∀ dir ∈ entries tree.lexical hostsDir, ∃ c, tree.descend dir.normal = .ok c.2 ∧
      (v.vary tree hostsDir).descend dir.normal = .ok (v.group c) := by
    intro dir hdir
    obtain ⟨top, htop, c, hc, rfl⟩ := exists_child_of_mem_entries hdir
    have htop' := descend_vary v hproper hostsDir
    rw [htop] at htop'
    have hthere := hproper.descend_join_revise htop htop' hc
    rw [hnone] at hthere
    exact ⟨c, (hproper.descend_join htop hc).2.2, hthere⟩
  rcases List.mem_append.1 hpath with hpath | hpath
  · obtain ⟨c, -, hthere⟩ := hgroup path hpath
    exact FileTree.has_lexical.2 ⟨_, hthere⟩
  · obtain ⟨dir, hdir, hpath⟩ := List.mem_flatMap.1 hpath
    obtain ⟨c, hfound, hthere⟩ := hgroup dir (List.mem_of_mem_filter hdir)
    obtain ⟨t, ht, e, he, rfl⟩ := exists_child_of_mem_entries hpath
    obtain rfl := Except.ok.inj (hfound.symm.trans ht)
    have hentry := hproper.descend_join_revise hfound hthere he
    rw [hnone] at hentry
    exact FileTree.has_lexical.2 ⟨_, hentry⟩

end Runs

/-! ### Blamed names -/

theorem eq_of_loadHost_eq_error {group : String} {path bad : Path} (h : loadHost parse fs root group path = .error (.invalidName bad)) :
    bad = path := by
  cases hstem : path.stem?.bind Utf8.decode? with
  | none =>
    rw [loadHost, hstem] at h
    exact (RegistryFault.invalidName.inj (Except.error.inj h)).symm
  | some name =>
    rw [loadHost_of_stem? hstem] at h
    rcases bind_eq_error_iff.1 h with hsaid | ⟨_, -, hhost⟩
    · split at hsaid
      · rcases bind_eq_error_iff.1 hsaid with hread | ⟨_, -, hparse⟩
        · obtain ⟨_, -, hfault⟩ := mapError_eq_error_iff.1 hread
          simp at hfault
        · obtain ⟨_, -, hfault⟩ := mapError_eq_error_iff.1 hparse
          simp at hfault
      · simp at hsaid
    · simp at hhost

theorem eq_of_visitEntry_eq_error {group : String} {r : Registry} {path bad : Path}
    (h : (visitEntry parse fs root group r path).outcome = .error (.invalidName bad)) : bad = path := by
  cases htext : path.textName? with
  | none =>
    rw [outcome_visitEntry_of_none htext] at h
    exact (RegistryFault.invalidName.inj (Except.error.inj h)).symm
  | some name =>
    rw [outcome_visitEntry htext] at h
    split at h
    · rcases bind_eq_error_iff.1 h with hload | ⟨host, -, hadd⟩
      · exact eq_of_loadHost_eq_error hload
      · rw [add] at hadd
        split at hadd
        · simp at hadd
        · simp at hadd
    · simp at h

theorem mem_of_visitGroup_eq_error {r : Registry} {path bad : Path}
    (h : (visitGroup parse fs root r path).outcome = .error (.invalidName bad)) :
    bad = path ∨ isGroup fs path = true ∧ bad ∈ entries fs path := by
  cases htext : path.textName? with
  | none =>
    rw [outcome_visitGroup_of_none htext] at h
    exact .inl (RegistryFault.invalidName.inj (Except.error.inj h)).symm
  | some group =>
    rw [outcome_visitGroup htext] at h
    split at h
    · rename_i hgroup
      rcases bind_eq_error_iff.1 h with hlist | ⟨paths, hlist, hwalk⟩
      · obtain ⟨_, -, hfault⟩ := mapError_eq_error_iff.1 hlist
        simp at hfault
      · rw [Logged.outcome_foldlM] at hwalk
        obtain ⟨before, entry, after, made, rfl, -, hvisit⟩ := exists_of_foldlM_eq_error hwalk
        obtain rfl := eq_of_visitEntry_eq_error hvisit
        refine .inr ⟨hgroup, ?_⟩
        rw [entries_of_list (listing_eq_ok_iff.1 hlist)]
        simp
    · simp at h

/-- What is blamed for its name was looked at. -/
theorem lookedAt_of_invalidName {hostsDir bad : Path}
    (h : (discover fs root hostsDir parse).outcome = .error (.invalidName bad)) : bad ∈ lookedAt fs hostsDir := by
  rw [outcome_discover] at h
  rcases bind_eq_error_iff.1 h with hlist | ⟨paths, hlist, hwalk⟩
  · obtain ⟨_, -, hfault⟩ := mapError_eq_error_iff.1 hlist
    simp at hfault
  · obtain ⟨before, path, after, made, rfl, -, hvisit⟩ := exists_of_foldlM_eq_error hwalk
    have hpath : path ∈ entries fs hostsDir := by
      rw [entries_of_list (listing_eq_ok_iff.1 hlist)]
      simp
    rcases mem_of_visitGroup_eq_error hvisit with rfl | ⟨hgroup, hentry⟩
    · exact List.mem_append_left _ hpath
    · exact List.mem_append_right _ (List.mem_flatMap.2 ⟨path, List.mem_filter.2 ⟨hpath, hgroup⟩, hentry⟩)

theorem has_of_mem_lookedAt {tree : FileTree} (hproper : tree.Proper) {hostsDir path : Path}
    (h : path ∈ lookedAt tree.lexical hostsDir) : tree.lexical.has path = true := by
  rcases List.mem_append.1 h with hpath | hpath
  · obtain ⟨_, -, -, -, hhas⟩ := exists_name_of_mem_entries hproper hpath
    exact hhas
  · obtain ⟨dir, -, hpath⟩ := List.mem_flatMap.1 hpath
    obtain ⟨_, -, -, -, hhas⟩ := exists_name_of_mem_entries hproper hpath
    exact hhas

/-- Leaving out idle entries and changing files that are no descriptions makes a difference only by a name. The outcome is
the same exactly if the entry that is blamed for its name, if there is one, is not left out. So it is the same if the
entries that are left out have names that are text, and if none are left out. -/
theorem ignored_entries_count_by_name (parse : HostFile.Parser) (tree : FileTree) (hproper : tree.Proper) (root hostsDir : Path) (v : Variation) :
    ((discover (v.vary tree hostsDir).lexical root hostsDir parse).outcome = (discover tree.lexical root hostsDir parse).outcome ↔
      ∀ path, (discover tree.lexical root hostsDir parse).outcome = .error (.invalidName path) →
        (v.vary tree hostsDir).lexical.has path = true) ∧
    ((∀ path ∈ lookedAt tree.lexical hostsDir, (v.vary tree hostsDir).lexical.has path = false → path.textName?.isSome) →
      (discover (v.vary tree hostsDir).lexical root hostsDir parse).outcome = (discover tree.lexical root hostsDir parse).outcome) ∧
    ((∀ names, v.gone names = false) →
      (discover (v.vary tree hostsDir).lexical root hostsDir parse).outcome = (discover tree.lexical root hostsDir parse).outcome) := by
  have hsame := sameUnless_vary v parse hproper root hostsDir
  refine ⟨⟨fun heq path hblamed => ?_, fun hthere => ?_⟩, fun htext => ?_, fun hnone => ?_⟩
  · rw [← heq] at hblamed
    exact has_of_mem_lookedAt (v.proper_vary hproper hostsDir) (lookedAt_of_invalidName hblamed)
  · rcases hsame with heq | ⟨_, ⟨path, -, -, hgone, rfl⟩, hblamed⟩
    · exact heq
    · exact absurd (hthere path hblamed) (by simp [hgone])
  · rcases hsame with heq | ⟨_, ⟨path, hlooked, hnot, hgone, rfl⟩, -⟩
    · exact heq
    · exact absurd (htext path hlooked hgone) (by simp [hnot])
  · rcases hsame with heq | ⟨_, ⟨path, hlooked, -, hgone, rfl⟩, -⟩
    · exact heq
    · exact absurd (has_vary v hproper hnone hlooked) (by simp [hgone])

/-- The site with entries that are passed over: hidden ones, a stray file and a directory in a group. -/
def cluttered : FileTree :=
  let broken := FileTree.file (.ok (Utf8.encode "modules = ["))
  (((site.insert (["fleet", "east", "hosts", ".git", "config"].map Utf8.encode) broken).insert
    (["fleet", "east", "hosts", "README"].map Utf8.encode) broken).insert
    (["fleet", "east", "hosts", "web", ".draft.toml"].map Utf8.encode) broken).insert
    (["fleet", "east", "hosts", "web", "old", "www.nix"].map Utf8.encode) broken

theorem proper_cluttered : cluttered.Proper :=
  (((proper_site.insert (.file _) (by decide)).insert (.file _) (by decide)).insert (.file _) (by decide)).insert
    (.file _) (by decide)

/-- All idle entries are left out, and no file but descriptions can be read. -/
def barest : Variation := ⟨fun _ => true, fun _ => .error 13⟩

theorem cluttered_counts_by_name :
    (discover (barest.vary cluttered "fleet/east/hosts").lexical "fleet" "fleet/east/hosts").outcome =
      (discover cluttered.lexical "fleet" "fleet/east/hosts").outcome ∧
    (discover cluttered.lexical "fleet" "fleet/east/hosts").outcome.isOk = true ∧
    cluttered.lexical.has "fleet/east/hosts/web/.draft.toml" = true ∧
    (barest.vary cluttered "fleet/east/hosts").lexical.has "fleet/east/hosts/web/.draft.toml" = false := by
  obtain ⟨-, htext, -⟩ := ignored_entries_count_by_name HostFile.parse cluttered proper_cluttered "fleet" "fleet/east/hosts" barest
  exact ⟨htext (by decide +kernel), by decide +kernel, by decide +kernel, by decide +kernel⟩

/-- The same with one more hidden entry, whose name is not text. -/
def unnamed : FileTree :=
  cluttered.insert (["fleet", "east", "hosts"].map Utf8.encode ++ [[Path.dot, 0xff]]) (.file (.ok []))

theorem unnamed_entry_counts :
    unnamed.Proper ∧ (discover unnamed.lexical "fleet" "fleet/east/hosts").outcome.isOk = false ∧
      (discover (barest.vary unnamed "fleet/east/hosts").lexical "fleet" "fleet/east/hosts").outcome.isOk = true :=
  ⟨proper_cluttered.insert (.file _) (by decide), by decide +kernel, by decide +kernel⟩

end Registry

end HostFleet
