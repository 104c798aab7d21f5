import HostFleet.FileSystem.Tree
import HostFleet.Proofs.FileSystem.Path
import HostFleet.Proofs.Outcome

/-!
# Places in a tree of files

What stands at a place, and what a change of the tree does to it. In a proper tree the entries of a directory have names, and
different ones, so an entry that is listed is what is found under its path (`Proper.descend_join`).
-/

namespace HostFleet.FileTree

/-! ### Places -/

theorem descend_cons (fault : Option Int) (children : List (FileName × FileTree)) (name : FileName) (names : List FileName) :
    (dir fault children).descend (name :: names) =
      ((dir fault children).child? name).elim (.error .missing) (·.descend names) := by
  rw [descend]
  cases (dir fault children).child? name <;> rfl

theorem descend_append (tree : FileTree) (names more : List FileName) :
    tree.descend (names ++ more) = tree.descend names >>= (·.descend more) := by
  induction names generalizing tree with
  | nil => rfl
  | cons name names ih =>
    cases tree with
    | file content => rfl
    | dir fault children =>
      rw [List.cons_append, descend_cons, descend_cons]
      cases (dir fault children).child? name with
      | none => rfl
      | some t => exact ih t

/-- All directories have their entries in the order of their names, and these are names. -/
inductive Proper : FileTree → Prop
  | file (content : Except Int (List UInt8)) : Proper (.file content)
  | dir (fault : Option Int) {children : List (FileName × FileTree)} (sorted : children.Pairwise fun c c' => c.1 < c'.1)
      (named : ∀ c ∈ children, Path.IsName c.1) (inner : ∀ c ∈ children, c.2.Proper) : Proper (.dir fault children)

theorem child?_of_mem {fault : Option Int} {children : List (FileName × FileTree)}
    (hsorted : children.Pairwise fun c c' => c.1 < c'.1) {c : FileName × FileTree} (hc : c ∈ children) :
    (dir fault children).child? c.1 = some c.2 := by
  rw [child?]
  induction children with
  | nil => simp at hc
  | cons first rest ih =>
    obtain ⟨hfirst, hrest⟩ := List.pairwise_cons.1 hsorted
    rcases List.mem_cons.1 hc with rfl | hc
    · rw [List.find?_cons_of_pos (by simp)]
      rfl
    · have hne : first.1 ≠ c.1 := fun heq => List.lt_irrefl _ (heq ▸ hfirst c hc)
      rw [List.find?_cons_of_neg (by simpa using hne)]
      exact ih hrest hc

theorem mem_of_child? {fault : Option Int} {children : List (FileName × FileTree)} {name : FileName} {t : FileTree}
    (h : (dir fault children).child? name = some t) : (name, t) ∈ children := by
  obtain ⟨c, hfind, rfl⟩ := Option.map_eq_some_iff.1 h
  obtain rfl : c.1 = name := by simpa using List.find?_some hfind
  exact List.mem_of_find?_eq_some hfind

theorem Proper.descend {tree t : FileTree} (hproper : tree.Proper) {names : List FileName}
    (h : tree.descend names = .ok t) : t.Proper := by
  induction names generalizing tree with
  | nil =>
    obtain rfl := Except.ok.inj h
    exact hproper
  | cons name names ih =>
    cases hproper with
    | file content => simp [FileTree.descend] at h
    | dir fault sorted named inner =>
      rename_i children
      rw [descend_cons] at h
      cases hchild : (FileTree.dir fault children).child? name with
      | none => simp [hchild] at h
      | some child =>
        rw [hchild] at h
        exact ih (inner _ (mem_of_child? hchild)) h

/-! ### Trees that are put together -/

theorem mem_place {name : FileName} {tree : FileTree} {children : List (FileName × FileTree)} {c : FileName × FileTree}
    (h : c ∈ place name tree children) : c = (name, tree) ∨ c ∈ children := by
  induction children with
  | nil => simpa [place] using h
  | cons first rest ih =>
    rw [place] at h
    split at h
    · rcases List.mem_cons.1 h with rfl | hrest
      · exact .inl rfl
      · exact .inr (List.mem_cons_of_mem _ hrest)
    · split at h
      · exact List.mem_cons.1 h
      · rcases List.mem_cons.1 h with rfl | hrest
        · exact .inr List.mem_cons_self
        · exact (ih hrest).imp_right (List.mem_cons_of_mem _)

theorem sorted_place {name : FileName} {tree : FileTree} {children : List (FileName × FileTree)}
    (h : children.Pairwise fun c c' => c.1 < c'.1) : (place name tree children).Pairwise fun c c' => c.1 < c'.1 := by
  induction children with
  | nil => simp [place]
  | cons first rest ih =>
    obtain ⟨hfirst, hrest⟩ := List.pairwise_cons.1 h
    rw [place]
    split
    · rename_i hsame
      subst hsame
      exact List.pairwise_cons.2 ⟨hfirst, hrest⟩
    · rename_i hne
      split
      · rename_i hlt
        refine List.pairwise_cons.2 ⟨List.forall_mem_cons.2 ⟨hlt, fun c hc => ?_⟩, h⟩
        exact List.lt_trans hlt (hfirst c hc)
      · rename_i hle
        refine List.pairwise_cons.2 ⟨fun c hc => ?_, ih hrest⟩
        rcases mem_place hc with rfl | hc
        · exact Std.lt_of_le_of_ne hle hne
        · exact hfirst c hc

theorem proper_empty : empty.Proper := .dir none .nil (by simp) (by simp)

theorem Proper.place {fault : Option Int} {children : List (FileName × FileTree)} {name : FileName} {tree : FileTree}
    (hproper : (FileTree.dir fault children).Proper) (hname : Path.IsName name) (htree : tree.Proper) :
    (FileTree.dir fault (FileTree.place name tree children)).Proper := by
  cases hproper with
  | dir _ sorted named inner =>
    refine .dir fault (sorted_place sorted) (fun c hc => ?_) (fun c hc => ?_)
    · rcases mem_place hc with rfl | hc
      · exact hname
      · exact named c hc
    · rcases mem_place hc with rfl | hc
      · exact htree
      · exact inner c hc

/-- A tree is proper if it is put together under names. -/
theorem Proper.insert {tree what : FileTree} (hproper : tree.Proper) (hwhat : what.Proper) {names : List FileName}
    (hnames : ∀ n ∈ names, Path.IsName n) : (tree.insert names what).Proper := by
  induction names generalizing tree with
  | nil => exact hwhat
  | cons name names ih =>
    obtain ⟨hname, hnames⟩ := List.forall_mem_cons.1 hnames
    cases hproper with
    | file content => exact proper_empty.place hname (ih proper_empty hnames)
    | dir fault sorted named inner =>
      rename_i children
      have hchild : (((FileTree.dir fault children).child? name).getD empty).Proper := by
        cases hchild : (FileTree.dir fault children).child? name with
        | none => exact proper_empty
        | some child => exact inner _ (mem_of_child? hchild)
      exact Proper.place (.dir fault sorted named inner) hname (ih hchild hnames)

/-! ### Changes -/

/-- Leaves entries out of a directory and changes the others. -/
def revise (keep : FileName × FileTree → Bool) (change : FileName × FileTree → FileTree) : FileTree → FileTree
  | .file content => .file content
  | .dir fault children => .dir fault ((children.filter keep).map fun c => (c.1, change c))

def children : FileTree → List (FileName × FileTree)
  | .file _ => []
  | .dir _ children => children

/-- Changes what stands at a place, if something does. -/
def modify (change : FileTree → FileTree) : List FileName → FileTree → FileTree
  | [], tree => change tree
  | name :: names, tree => tree.revise (fun _ => true) fun c => if c.1 = name then c.2.modify change names else c.2

section Changes

variable {keep : FileName × FileTree → Bool} {change : FileName × FileTree → FileTree}

theorem isDir_revise (tree : FileTree) : (tree.revise keep change).isDir = tree.isDir := by
  cases tree <;> rfl

theorem child?_revise {tree : FileTree} (hproper : tree.Proper) (name : FileName) :
    (tree.revise keep change).child? name =
      (tree.child? name).bind fun t => if keep (name, t) then some (change (name, t)) else none := by
  cases hproper with
  | file content => rfl
  | dir fault sorted named inner =>
    rename_i children
    clear named inner
    rw [revise, child?, child?]
    induction children with
    | nil => rfl
    | cons first rest ih =>
      obtain ⟨hfirst, hrest⟩ := List.pairwise_cons.1 sorted
      by_cases hname : first.1 = name
      · subst hname
        rw [List.find?_cons_of_pos (by simp), Option.map_some, Option.bind_some]
        by_cases hkeep : keep first = true
        · rw [List.filter_cons_of_pos hkeep, List.map_cons, List.find?_cons_of_pos (by simp), if_pos hkeep]
          rfl
        · have hnone : ((rest.filter keep).map fun c => (c.1, change c)).find? (fun c => c.1 = first.1) = none := by
            rw [List.find?_eq_none]
            intro c hc
            obtain ⟨c', hc', rfl⟩ := List.mem_map.1 hc
            have hlt := hfirst c' (List.mem_of_mem_filter hc')
            simpa using fun heq : c'.1 = first.1 => List.lt_irrefl _ (heq ▸ hlt)
          rw [List.filter_cons_of_neg hkeep, hnone, if_neg hkeep]
          rfl
      · rw [List.find?_cons_of_neg (by simpa using hname), ← ih hrest]
        by_cases hkeep : keep first = true
        · rw [List.filter_cons_of_pos hkeep, List.map_cons, List.find?_cons_of_neg (by simpa using hname)]
        · rw [List.filter_cons_of_neg hkeep]

theorem Proper.revise {tree : FileTree} (hproper : tree.Proper) (hchange : ∀ c, c.2.Proper → (change c).Proper) :
    (tree.revise keep change).Proper := by
  cases hproper with
  | file content => exact .file content
  | dir fault sorted named inner =>
    refine .dir fault (List.pairwise_map.2 (sorted.filter _)) ?_ ?_
    · intro c hc
      obtain ⟨c', hc', rfl⟩ := List.mem_map.1 hc
      exact named c' (List.mem_of_mem_filter hc')
    · intro c hc
      obtain ⟨c', hc', rfl⟩ := List.mem_map.1 hc
      exact hchange _ (inner c' (List.mem_of_mem_filter hc'))

theorem descend_revise_cons {tree : FileTree} (hproper : tree.Proper) (name : FileName) (names : List FileName) :
    (tree.revise keep change).descend (name :: names) = tree.descend [name] >>= fun t =>
      if keep (name, t) then (change (name, t)).descend names else .error .missing := by
  have hchild := @child?_revise keep change tree hproper name
  cases tree with
  | file content => rfl
  | dir fault children =>
    rw [descend_cons]
    rw [revise] at hchild ⊢
    rw [descend_cons, hchild]
    cases (dir fault children).child? name with
    | none => rfl
    | some t =>
      show Option.elim (if keep (name, t) then some (change (name, t)) else none) _ _ = _
      by_cases hkeep : keep (name, t) = true
      · rw [if_pos hkeep]
        exact (if_pos hkeep).symm
      · rw [if_neg hkeep]
        exact (if_neg hkeep).symm

variable {change : FileTree → FileTree}

theorem Proper.modify {tree : FileTree} (hproper : tree.Proper) (hchange : ∀ t, t.Proper → (change t).Proper)
    (names : List FileName) : (tree.modify change names).Proper := by
  induction names generalizing tree with
  | nil => exact hchange tree hproper
  | cons name names ih =>
    refine hproper.revise fun c hc => ?_
    split
    · exact ih hc
    · exact hc

/-- What stands at or below the place of a change. -/
theorem descend_modify {tree : FileTree} (hproper : tree.Proper) (names more : List FileName) :
    (tree.modify change names).descend (names ++ more) = tree.descend names >>= fun t => (change t).descend more := by
  induction names generalizing tree with
  | nil => rfl
  | cons name names ih =>
    have hcons : tree.descend (name :: names) = tree.descend [name] >>= (·.descend names) := descend_append tree [name] names
    rw [List.cons_append, modify, descend_revise_cons hproper, hcons]
    cases hname : tree.descend [name] with
    | error fault => rfl
    | ok t =>
      show (if name = name then t.modify change names else t).descend (names ++ more) = _
      rw [if_pos rfl]
      exact ih (hproper.descend hname)

end Changes

/-! ### Paths -/

variable {tree t : FileTree} {p : Path}

theorem has_lexical : tree.lexical.has p = true ↔ ∃ t, tree.descend p.normal = .ok t := isOk_eq_true_iff

theorem isDir_lexical (h : tree.descend p.normal = .ok t) : tree.lexical.isDir p = t.isDir := by
  simp only [lexical, viewed, h]

theorem read_lexical (h : tree.descend p.normal = .ok t) : tree.lexical.read p = t.content := by
  show (tree.descend p.normal >>= fun t => t.content) = t.content
  rw [h]
  rfl

theorem list_lexical (h : tree.descend p.normal = .ok t) :
    tree.lexical.list p = t.names >>= fun names => .ok (names.map fun n => p.join ⟨n⟩) := by
  show (tree.descend p.normal >>= fun t => t.names >>= fun names => .ok (names.map fun n => p.join ⟨n⟩)) = _
  rw [h]
  rfl

theorem list_lexical_of_error {fault : IoFault} (h : tree.descend p.normal = .error fault) :
    tree.lexical.list p = .error fault := by
  show (tree.descend p.normal >>= fun t => t.names >>= fun names => .ok (names.map fun n => p.join ⟨n⟩)) = _
  rw [h]
  rfl

theorem Proper.descend_join (hproper : tree.Proper) (h : tree.descend p.normal = .ok t) {c : FileName × FileTree}
    (hc : c ∈ t.children) :
    Path.IsName c.1 ∧ (p.join ⟨c.1⟩).normal = p.normal ++ [c.1] ∧ tree.descend (p.join ⟨c.1⟩).normal = .ok c.2 := by
  cases hproper.descend h with
  | file content => simp [children] at hc
  | dir fault sorted named inner =>
    have hnormal := Path.normal_join_name p (named c hc)
    refine ⟨named c hc, hnormal, ?_⟩
    rw [hnormal, descend_append, h]
    show (FileTree.dir fault _).descend [c.1] = _
    rw [descend_cons, child?_of_mem sorted hc]
    rfl

/-- An entry of a directory, seen in a tree where the directory was revised. -/
theorem Proper.descend_join_revise {tree' : FileTree} {keep : FileName × FileTree → Bool}
    {change : FileName × FileTree → FileTree} (hproper : tree.Proper) (h : tree.descend p.normal = .ok t)
    (h' : tree'.descend p.normal = .ok (t.revise keep change)) {c : FileName × FileTree} (hc : c ∈ t.children) :
    tree'.descend (p.join ⟨c.1⟩).normal = if keep c then .ok (change c) else .error .missing := by
  obtain ⟨-, hnormal, hfound⟩ := hproper.descend_join h hc
  have hchild : t.descend [c.1] = .ok c.2 := by
    rw [hnormal, descend_append, h] at hfound
    exact hfound
  rw [hnormal, descend_append, h']
  show (t.revise keep change).descend [c.1] = _
  rw [descend_revise_cons (hproper.descend h), hchild]
  rfl

theorem exists_child_of_list {paths : List Path} (h : tree.lexical.list p = .ok paths) {path : Path} (hpath : path ∈ paths) :
    ∃ t, tree.descend p.normal = .ok t ∧ ∃ c ∈ t.children, path = p.join ⟨c.1⟩ := by
  cases hplace : tree.descend p.normal with
  | error fault => simp [list_lexical_of_error hplace] at h
  | ok t =>
    refine ⟨t, rfl, ?_⟩
    rw [list_lexical hplace, bind_eq_ok_iff] at h
    obtain ⟨names, hnames, hok⟩ := h
    obtain rfl := Except.ok.inj hok
    obtain ⟨n, hn, rfl⟩ := List.mem_map.1 hpath
    cases t with
    | file content => cases content <;> simp [FileTree.names] at hnames
    | dir fault children =>
      cases fault with
      | some code => simp [FileTree.names] at hnames
      | none =>
        obtain rfl := Except.ok.inj hnames
        obtain ⟨c, hc, rfl⟩ := List.mem_map.1 hn
        exact ⟨c, hc, rfl⟩

end HostFleet.FileTree
