import Mathlib.Data.List.Basic
import HostFleet.FileSystem.Path
import HostFleet.Proofs.Text.Utf8

/-!
# Joined paths

Paths are joined as octets, and what they mean is in their parts. A relative path adds its parts after those of the path
before it, whatever slashes stand between them. So components are added, names are added, and the place that a path leads to
is found from the place of the path before it. Going up is the only step that takes something away from a place.
-/

namespace HostFleet.Path

/-! ### Parts -/

theorem split_ne_nil (octets : List UInt8) : parts.split octets ≠ [] := by
  cases octets with
  | nil => simp [parts.split]
  | cons b rest =>
    simp only [parts.split]
    split
    · simp
    · split <;> simp

theorem split_append_slash (before after : List UInt8) :
    parts.split (before ++ slash :: after) = parts.split before ++ parts.split after := by
  induction before with
  | nil => simp [parts.split]
  | cons b rest ih =>
    simp only [List.cons_append, parts.split, ih]
    split
    · rfl
    · cases hrest : parts.split rest with
      | nil => exact absurd hrest (split_ne_nil rest)
      | cons part more => rfl

theorem split_of_not_mem {octets : List UInt8} (h : slash ∉ octets) : parts.split octets = [octets] := by
  induction octets with
  | nil => rfl
  | cons b rest ih =>
    obtain ⟨hb, hrest⟩ := not_or.1 (mt List.mem_cons.2 h)
    simp only [parts.split, if_neg (Ne.symm hb), ih hrest]

/-- A name that an entry of a directory may have. -/
structure IsName (n : FileName) : Prop where
  ne_nil : n ≠ []
  slash_free : slash ∉ n
  ne_here : n ≠ here
  ne_up : n ≠ up

instance : DecidablePred IsName := fun n =>
  decidable_of_iff (n ≠ [] ∧ slash ∉ n ∧ n ≠ here ∧ n ≠ up)
    ⟨fun h => ⟨h.1, h.2.1, h.2.2.1, h.2.2.2⟩, fun h => ⟨h.1, h.2, h.3, h.4⟩⟩

def namesSomething (part : FileName) : Bool := part ≠ [] ∧ part ≠ here ∧ part ≠ up

def names (p : Path) : List FileName := p.parts.filter namesSomething

theorem IsName.namesSomething {n : FileName} (h : IsName n) : namesSomething n = true := by
  simp [Path.namesSomething, h.ne_nil, h.ne_here, h.ne_up]

theorem isName_of_mem_names {p : Path} {n : FileName} (h : n ∈ p.names) : IsName n := by
  obtain ⟨hpart, hnames⟩ := List.mem_filter.1 h
  simp only [namesSomething, decide_eq_true_eq] at hnames
  refine ⟨hnames.1, ?_, hnames.2.1, hnames.2.2⟩
  have hfree : ∀ octets : List UInt8, ∀ part ∈ parts.split octets, slash ∉ part := by
    intro octets
    induction octets with
    | nil => simp [parts.split]
    | cons b rest ih =>
      simp only [parts.split]
      split
      · simpa using ih
      · rename_i hb
        cases hrest : parts.split rest with
        | nil => exact absurd hrest (split_ne_nil rest)
        | cons part more =>
          rw [hrest] at ih
          simpa [Ne.symm hb] using ih
  exact hfree p.octets n hpart

theorem parts_ofName {n : FileName} (h : IsName n) : (⟨n⟩ : Path).parts = [n] := split_of_not_mem h.slash_free

theorem isAbsolute_ofName {n : FileName} (h : IsName n) : (⟨n⟩ : Path).isAbsolute = false := by
  cases n with
  | nil => rfl
  | cons b rest =>
    have hb : b ≠ slash := fun hb => h.slash_free (hb ▸ List.mem_cons_self)
    simp [isAbsolute, hb]

/-! ### Joining -/

theorem join_of_nil {p : Path} (hp : p.octets = []) (q : Path) : p.join q = q := by
  rw [join, if_pos (.inr hp)]

theorem octets_join {p q : Path} (hp : p.octets ≠ []) (hq : q.isAbsolute = false) :
    (∃ before, p.octets = before ++ [slash] ∧ (p.join q).octets = before ++ slash :: q.octets) ∨
      (p.join q).octets = p.octets ++ slash :: q.octets := by
  rw [join, if_neg (by simp [hp, hq])]
  by_cases hlast : p.octets.getLast? = some slash
  · obtain ⟨before, hbefore⟩ := List.getLast?_eq_some_iff.1 hlast
    rw [if_pos hlast, hbefore]
    exact .inl ⟨before, rfl, by simp⟩
  · rw [if_neg hlast]
    exact .inr rfl

/-- The parts of the second path follow those of the first, but for an empty one at its end. -/
theorem parts_join {p q : Path} (hp : p.octets ≠ []) (hq : q.isAbsolute = false) :
    ∃ before after, before ≠ [] ∧ (after = [] ∨ after = [[]]) ∧ p.parts = before ++ after ∧
      (p.join q).parts = before ++ q.parts := by
  rcases octets_join hp hq with ⟨before, hbefore, hjoin⟩ | hjoin
  · refine ⟨parts.split before, [[]], split_ne_nil before, .inr rfl, ?_, ?_⟩
    · rw [parts, hbefore, split_append_slash]
      rfl
    · rw [parts, hjoin, split_append_slash]
      rfl
  · refine ⟨p.parts, [], split_ne_nil _, .inl rfl, (List.append_nil _).symm, ?_⟩
    rw [parts, hjoin, split_append_slash]
    rfl

/-- The parts of a path that are not empty. -/
def solid (p : Path) : List FileName := p.parts.filter (· ≠ [])

theorem solid_join (p : Path) {q : Path} (hq : q.isAbsolute = false) : (p.join q).solid = p.solid ++ q.solid := by
  by_cases hp : p.octets = []
  · obtain ⟨octets⟩ := p
    obtain rfl : octets = [] := hp
    rw [join_of_nil rfl]
    rfl
  · obtain ⟨before, after, -, hafter, hparts, hjoin⟩ := parts_join hp hq
    have hnone : after.filter (· ≠ []) = [] := by
      rcases hafter with rfl | rfl <;> rfl
    rw [solid, solid, solid, hparts, hjoin, List.filter_append, List.filter_append, hnone, List.append_nil]

theorem solid_ofName {n : FileName} (h : IsName n) : (⟨n⟩ : Path).solid = [n] := by
  rw [solid, parts_ofName h]
  simp [h.ne_nil]

theorem filter_solid (p : Path) : p.solid.filter namesSomething = p.names := by
  rw [solid, names, List.filter_filter]
  refine List.filter_congr fun part _ => ?_
  by_cases hpart : part = [] <;> simp [namesSomething, hpart]

/-! ### Components -/

def Component.name? : Component → Option FileName
  | .name n => some n
  | _ => none

/-- What stands before the steps of a path. -/
def lead (p : Path) : List Component :=
  if p.isAbsolute then [.root] else if p.parts.head? = some here then [.here] else []

theorem components_eq (p : Path) : p.components = p.lead ++ p.solid.filterMap Component.ofPart? := by
  have hsolid : p.solid.filterMap Component.ofPart? = p.parts.filterMap Component.ofPart? := by
    rw [solid, List.filterMap_filter]
    refine List.filterMap_congr fun part _ => ?_
    by_cases hpart : part = [] <;> simp [Component.ofPart?, hpart]
  rw [components, lead, hsolid]
  split
  · rfl
  · split <;> rfl

theorem lead_join {p q : Path} (hp : p.octets ≠ []) (hq : q.isAbsolute = false) : (p.join q).lead = p.lead := by
  have hhead : (p.join q).octets.head? = p.octets.head? := by
    rcases octets_join hp hq with ⟨before, hbefore, hjoin⟩ | hjoin
    · rw [hjoin, hbefore]
      cases before <;> rfl
    · rw [hjoin, List.head?_append_of_ne_nil _ hp]
  obtain ⟨before, after, hne, -, hparts, hjoin⟩ := parts_join hp hq
  rw [lead, lead, isAbsolute, isAbsolute, hhead, hparts, hjoin, List.head?_append_of_ne_nil _ hne,
    List.head?_append_of_ne_nil _ hne]

theorem filterMap_name?_steps (p : Path) : (p.solid.filterMap Component.ofPart?).filterMap Component.name? = p.names := by
  rw [List.filterMap_filterMap, ← filter_solid, ← List.filterMap_eq_filter]
  refine List.filterMap_congr fun part hpart => ?_
  have hne : part ≠ [] := by simpa using (List.mem_filter.1 hpart).2
  by_cases hhere : part = here
  · simp [Component.ofPart?, namesSomething, Option.guard, hhere]
  · by_cases hup : part = up
    · simp [Component.ofPart?, Component.name?, namesSomething, Option.guard, hup]
    · simp [Component.ofPart?, Component.name?, namesSomething, Option.guard, hne, hhere, hup]

theorem filterMap_name?_components (p : Path) : p.components.filterMap Component.name? = p.names := by
  have hlead : p.lead.filterMap Component.name? = [] := by
    rw [lead]
    split
    · rfl
    · split <;> rfl
  rw [components_eq, List.filterMap_append, hlead, List.nil_append, filterMap_name?_steps]

theorem components_join (p : Path) {q : Path} (hq : q.isAbsolute = false) :
    ∃ rest, (p.join q).components = p.components ++ rest ∧ rest.filterMap Component.name? = q.names := by
  by_cases hp : p.octets = []
  · have hnone : p.components = [] := by
      obtain ⟨octets⟩ := p
      obtain rfl : octets = [] := hp
      rfl
    rw [join_of_nil hp, hnone]
    exact ⟨q.components, rfl, filterMap_name?_components q⟩
  · refine ⟨q.solid.filterMap Component.ofPart?, ?_, filterMap_name?_steps q⟩
    rw [components_eq, lead_join hp hq, solid_join p hq, List.filterMap_append, ← List.append_assoc, ← components_eq]

theorem components_join_name (p : Path) {n : FileName} (h : IsName n) :
    (p.join ⟨n⟩).components = p.components ++ [.name n] := by
  have hstep : Component.ofPart? n = some (.name n) := by
    simp [Component.ofPart?, h.ne_nil, h.ne_here, h.ne_up]
  have hlead : (⟨n⟩ : Path).lead = [] := by
    rw [lead, isAbsolute_ofName h, parts_ofName h]
    simp [h.ne_here]
  by_cases hp : p.octets = []
  · obtain ⟨octets⟩ := p
    obtain rfl : octets = [] := hp
    rw [join_of_nil rfl, components_eq, hlead, solid_ofName h, List.filterMap_cons_some hstep]
    rfl
  · rw [components_eq, lead_join hp (isAbsolute_ofName h), solid_join p (isAbsolute_ofName h), List.filterMap_append,
      ← List.append_assoc, ← components_eq, solid_ofName h, List.filterMap_cons_some hstep]
    rfl

theorem fileName?_join (p : Path) {n : FileName} (h : IsName n) : (p.join ⟨n⟩).fileName? = some n := by
  rw [fileName?, components_join_name p h, List.getLast?_concat]

/-! ### Places -/

/-- Where one part leads from a place. -/
def step (place : List FileName) (part : FileName) : List FileName :=
  if part = [] ∨ part = here then place else if part = up then place.dropLast else place ++ [part]

theorem normal_eq (p : Path) : p.normal = p.solid.foldl step [] := by
  rw [solid, List.foldl_filter]
  refine List.foldl_ext _ _ _ fun place part _ => ?_
  by_cases hpart : part = [] <;> simp [step, hpart]

theorem normal_join (p : Path) {q : Path} (hq : q.isAbsolute = false) : (p.join q).normal = q.solid.foldl step p.normal := by
  rw [normal_eq, normal_eq, solid_join p hq, List.foldl_append]

theorem step_of_namesSomething {part : FileName} (h : namesSomething part = true) (place : List FileName) :
    step place part = place ++ [part] := by
  simp only [namesSomething, decide_eq_true_eq] at h
  rw [step, if_neg (by simp [h.1, h.2.1]), if_neg h.2.2]

theorem normal_join_name (p : Path) {n : FileName} (h : IsName n) : (p.join ⟨n⟩).normal = p.normal ++ [n] := by
  rw [normal_join p (isAbsolute_ofName h), solid_ofName h]
  exact step_of_namesSomething h.namesSomething p.normal

theorem length_foldl_step_le (parts : List FileName) (place : List FileName) :
    (parts.foldl step place).length ≤ place.length + (parts.filter namesSomething).length := by
  induction parts generalizing place with
  | nil => simp
  | cons part rest ih =>
    rw [List.foldl_cons]
    have hrest := ih (step place part)
    by_cases hname : namesSomething part = true
    · rw [step_of_namesSomething hname, List.length_append, List.length_singleton] at hrest
      rw [step_of_namesSomething hname, List.filter_cons_of_pos hname, List.length_cons]
      omega
    · have hstep : (step place part).length ≤ place.length := by
        rw [step]
        split
        · exact Nat.le_refl _
        · split
          · simp
          · simp_all [namesSomething]
      rw [List.filter_cons_of_neg hname]
      omega

/-- Only going up shortens a place, and from the top it does not. -/
theorem foldl_step_eq_of_length {parts : List FileName} {place : List FileName}
    (h : (parts.foldl step place).length = place.length + (parts.filter namesSomething).length) :
    parts.foldl step place = place ++ parts.filter namesSomething := by
  induction parts generalizing place with
  | nil => simp
  | cons part rest ih =>
    rw [List.foldl_cons] at h ⊢
    have hle := length_foldl_step_le rest (step place part)
    by_cases hname : namesSomething part = true
    · rw [List.filter_cons_of_pos hname, List.length_cons] at h
      have hlength : (rest.foldl step (step place part)).length =
          (step place part).length + (rest.filter namesSomething).length := by
        rw [h, step_of_namesSomething hname, List.length_append, List.length_singleton]
        omega
      rw [ih hlength, step_of_namesSomething hname, List.filter_cons_of_pos hname, List.append_assoc]
      rfl
    · rw [List.filter_cons_of_neg hname] at h ⊢
      have hstep : step place part = place := by
        rw [step] at hle ⊢
        split
        · rfl
        · split
          · rename_i hpart hup
            rw [step, if_neg hpart, if_pos hup] at h
            rw [if_neg hpart, if_pos hup, List.length_dropLast] at hle
            have htop : place = [] := List.length_eq_zero_iff.1 (by omega)
            rw [htop]
            rfl
          · simp_all [namesSomething]
      rw [hstep] at h ⊢
      exact ih h

theorem foldl_step_of_no_up {parts : List FileName} (h : up ∉ parts) (place : List FileName) :
    parts.foldl step place = place ++ parts.filter namesSomething := by
  induction parts generalizing place with
  | nil => simp
  | cons part rest ih =>
    obtain ⟨hup, hrest⟩ := not_or.1 (mt List.mem_cons.2 h)
    rw [List.foldl_cons, ih hrest]
    by_cases hname : namesSomething part = true
    · rw [step_of_namesSomething hname, List.filter_cons_of_pos hname, List.append_assoc]
      rfl
    · have hnone : part = [] ∨ part = here := by
        by_contra hsome
        obtain ⟨hnil, hhere⟩ := not_or.1 hsome
        exact hname (by simp [namesSomething, hnil, hhere, Ne.symm hup])
      rw [step, if_pos hnone, List.filter_cons_of_neg hname]

/-! ### References -/

theorem parts_intercalate {texts : List String} (hne : texts ≠ []) (h : ∀ text ∈ texts, slash ∉ Utf8.encode text) :
    (ofText ("/".intercalate texts)).parts = texts.map Utf8.encode := by
  have hoctets : (ofText ("/".intercalate texts)).octets =
      (List.intercalate ['/'] (texts.map String.toList)).flatMap String.utf8EncodeChar := by
    rw [ofText, Utf8.encode, String.toList_intercalate]
    rfl
  rw [parts, hoctets]
  clear hoctets
  induction texts with
  | nil => exact absurd rfl hne
  | cons text more ih =>
    obtain ⟨htext, hmore⟩ := List.forall_mem_cons.1 h
    cases more with
    | nil =>
      simp only [List.map_cons, List.map_nil, List.intercalate_singleton]
      exact split_of_not_mem htext
    | cons next more =>
      have hcut : (List.intercalate ['/'] ((text :: next :: more).map String.toList)).flatMap String.utf8EncodeChar =
          Utf8.encode text ++ slash ::
            (List.intercalate ['/'] ((next :: more).map String.toList)).flatMap String.utf8EncodeChar := by
        simp only [List.map_cons, List.intercalate_cons_cons, List.flatMap_append, List.append_assoc]
        rfl
      rw [hcut, split_append_slash, ih (by simp) hmore, split_of_not_mem htext]
      rfl

theorem reference_of_components {p base : Path} {rest : List Component} (h : p.components = base.components ++ rest) :
    p.reference base = "/".intercalate ((rest.filterMap Component.name?).map Utf8.decodeLossy) := by
  have hfrom : p.componentsFrom base = rest := by
    rw [componentsFrom, h, if_pos (List.isPrefixOf_iff_prefix.2 (List.prefix_append _ _)), List.drop_left]
  rw [reference, hfrom, List.map_filterMap]
  congr 1
  refine List.filterMap_congr fun c _ => ?_
  cases c <;> rfl

/-- A name stays a name when it is read as text, whether or not it is text. -/
theorem IsName.encode_decodeLossy {n : FileName} (h : IsName n) : IsName (Utf8.encode (Utf8.decodeLossy n)) := by
  have hsame : ∀ s : String, '�' ∉ s.toList → Utf8.encode (Utf8.decodeLossy n) = Utf8.encode s → n = Utf8.encode s := by
    intro s hs heq
    have hread := Utf8.decode?_of_decodeLossy (Utf8.encode_injective heq) hs
    exact (Utf8.encode_of_decode? hread).symm
  refine ⟨fun hnil => ?_, fun hslash => ?_, fun hhere => ?_, fun hup => ?_⟩
  · exact h.ne_nil (hsame "" (by decide) hnil)
  · exact h.slash_free (Utf8.mem_of_mem_encode_decodeLossy (by decide) hslash)
  · exact h.ne_here (hsame "." (by decide) hhere)
  · exact h.ne_up (hsame ".." (by decide) hup)

/-- Where a reference leads: to the names that it was made from, as far as they are text. -/
theorem normal_join_intercalate (root : Path) {names : List FileName} (hne : names ≠ []) (h : ∀ n ∈ names, IsName n) :
    (root.join (ofText ("/".intercalate (names.map Utf8.decodeLossy)))).normal =
      root.normal ++ names.map fun n => Utf8.encode (Utf8.decodeLossy n) := by
  let written := names.map fun n => Utf8.encode (Utf8.decodeLossy n)
  have hwritten : ∀ n ∈ written, IsName n := by
    intro n hn
    obtain ⟨m, hm, rfl⟩ := List.mem_map.1 hn
    exact (h m hm).encode_decodeLossy
  have hparts : (ofText ("/".intercalate (names.map Utf8.decodeLossy))).parts = written := by
    rw [parts_intercalate (by simpa using hne) ?_, List.map_map]
    · rfl
    · intro text htext
      obtain ⟨n, hn, rfl⟩ := List.mem_map.1 htext
      exact (h n hn).encode_decodeLossy.slash_free
  have hrelative : (ofText ("/".intercalate (names.map Utf8.decodeLossy))).isAbsolute = false := by
    rw [isAbsolute, decide_eq_false_iff_not]
    intro hslash
    cases hoctets : (ofText ("/".intercalate (names.map Utf8.decodeLossy))).octets with
    | nil => simp [hoctets] at hslash
    | cons b rest =>
      obtain rfl : b = slash := by simpa [hoctets] using hslash
      rw [parts, hoctets, parts.split, if_pos rfl] at hparts
      exact (hwritten [] (hparts ▸ List.mem_cons_self)).ne_nil rfl
  have hsolid : (ofText ("/".intercalate (names.map Utf8.decodeLossy))).solid = written := by
    rw [solid, hparts, List.filter_eq_self]
    exact fun n hn => by simpa using (hwritten n hn).ne_nil
  have hup : up ∉ written := fun hmem => (hwritten up hmem).ne_up rfl
  rw [normal_join root hrelative, hsolid, foldl_step_of_no_up hup,
    List.filter_eq_self.2 fun n hn => (hwritten n hn).namesSomething]

end HostFleet.Path
