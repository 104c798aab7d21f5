import Mathlib.Data.List.Forall2
import HostFleet.Package.Set
import HostFleet.Proofs.List
import HostFleet.Proofs.Text.Utf8

/-!
# What a digest tells

The octets that are hashed for an artifact and for a package set are texts with marks between them. Where no text holds a
mark the texts can be read back, so equal octets come from equal artifacts, and from sets with the same names and the same
digests. A digest is the hash in hexadecimal and loses nothing of it. Hence two sets of one digest are the same set, or two
of the octet sequences that were hashed for them differ and have the same hash.
-/

namespace HostFleet

namespace Sha256

/-! ### Hexadecimal -/

private theorem digitChar_inj : ∀ m < 16, ∀ n < 16, Nat.digitChar m = Nat.digitChar n → m = n := by decide

private theorem shiftRight_eq {n n' shift : Nat} (hhigh : n >>> (shift + 4) = n' >>> (shift + 4))
    (hdigit : (n >>> shift) % 16 = (n' >>> shift) % 16) : n >>> shift = n' >>> shift := by
  rw [Nat.shiftRight_add, Nat.shiftRight_add, Nat.shiftRight_eq_div_pow (n >>> shift),
    Nat.shiftRight_eq_div_pow (n' >>> shift)] at hhigh
  omega

theorem hexWord_injective : Function.Injective hexWord := by
  intro w w' h
  have hdigit : ∀ shift ∈ [28, 24, 20, 16, 12, 8, 4, 0], (w.toNat >>> shift) % 16 = (w'.toNat >>> shift) % 16 := by
    intro shift hshift
    exact digitChar_inj _ (Nat.mod_lt _ (by decide)) _ (Nat.mod_lt _ (by decide)) (List.map_inj_left.1 h shift hshift)
  have habove : w.toNat >>> 32 = w'.toNat >>> 32 := by
    rw [Nat.shiftRight_eq_div_pow, Nat.shiftRight_eq_div_pow, Nat.div_eq_of_lt w.toNat_lt, Nat.div_eq_of_lt w'.toNat_lt]
  have h28 := shiftRight_eq habove (hdigit 28 (by simp))
  have h24 := shiftRight_eq h28 (hdigit 24 (by simp))
  have h20 := shiftRight_eq h24 (hdigit 20 (by simp))
  have h16 := shiftRight_eq h20 (hdigit 16 (by simp))
  have h12 := shiftRight_eq h16 (hdigit 12 (by simp))
  have h8 := shiftRight_eq h12 (hdigit 8 (by simp))
  have h4 := shiftRight_eq h8 (hdigit 4 (by simp))
  exact UInt32.toNat_inj.1 (shiftRight_eq h4 (hdigit 0 (by simp)))

private theorem flatMap_hexWord_inj {l l' : List UInt32} (hlength : l.length = l'.length)
    (h : l.flatMap hexWord = l'.flatMap hexWord) : l = l' := by
  induction l generalizing l' with
  | nil => exact (List.length_eq_zero_iff.1 hlength.symm).symm
  | cons w rest ih =>
    cases l' with
    | nil => simp at hlength
    | cons w' rest' =>
      have hsize : (hexWord w).length = (hexWord w').length := by simp [hexWord]
      obtain ⟨hword, hrest⟩ := List.append_inj h hsize
      rw [hexWord_injective hword, ih (by simpa using hlength) hrest]

theorem hash_eq_of_digest_eq {message message' : List UInt8} (h : digest message = digest message') :
    hash message = hash message' := by
  have hwords := flatMap_hexWord_inj (by rfl) (String.ofList_injective h)
  generalize hash message = s at hwords ⊢
  generalize hash message' = s' at hwords ⊢
  cases s
  cases s'
  simpa using hwords

/-- Digits and letters are far above the marks. -/
theorem lt_of_mem_digest {message : List UInt8} {c : Char} (h : c ∈ (digest message).toList) : 3 < c.toNat := by
  have hdigit : ∀ n < 16, 3 < (Nat.digitChar n).toNat := by decide
  rw [digest, String.toList_ofList] at h
  obtain ⟨w, -, hc⟩ := List.mem_flatMap.1 h
  obtain ⟨shift, -, rfl⟩ := List.mem_map.1 hc
  exact hdigit _ (Nat.mod_lt _ (by decide))

end Sha256

/-! ### Texts between marks -/

namespace Marked

/-- A text without marks, that is without the characters up to U+0003. -/
def Plain (text : String) : Prop := ∀ c ∈ text.toList, 3 < c.toNat

instance : DecidablePred Plain := fun text => List.decidableBAll (fun c : Char => 3 < c.toNat) text.toList

/-- A first text, and further ones with a mark before each. -/
def spell (first : String) (rest : List (UInt8 × String)) : List UInt8 :=
  Utf8.encode first ++ rest.flatMap fun item => item.1 :: Utf8.encode item.2

theorem Plain.not_mark {text : String} (h : Plain text) {b : UInt8} (hb : b ∈ Utf8.encode text) : 3 < b.toNat := by
  obtain ⟨c, hc, hmem⟩ := List.mem_flatMap.1 hb
  have hplain := h c hc
  rcases Utf8.octet_of_mem_encodeChar hmem with hsame | hhigh <;> omega

/-- An item that can be told from what stands before it and after it. -/
def Legible (item : UInt8 × String) : Prop := item.1.toNat ≤ 3 ∧ Plain item.2

theorem takeWhile_spell {first : String} {rest : List (UInt8 × String)} (hfirst : Plain first)
    (hrest : ∀ item ∈ rest, Legible item) : (spell first rest).takeWhile (3 < ·.toNat) = Utf8.encode first := by
  have hstop : (rest.flatMap fun item => item.1 :: Utf8.encode item.2).takeWhile (3 < ·.toNat) = [] := by
    cases rest with
    | nil => rfl
    | cons item rest =>
      have hmark : ¬ 3 < item.1.toNat := Nat.not_lt.2 (hrest item List.mem_cons_self).1
      rw [List.flatMap_cons, List.cons_append, List.takeWhile_cons_of_neg (by simpa using hmark)]
  rw [spell, List.takeWhile_append_of_pos (fun b hb => by simpa using hfirst.not_mark hb), hstop, List.append_nil]

private theorem spell_cut {first first' : String} {rest rest' : List (UInt8 × String)} (hfirst : Plain first)
    (hfirst' : Plain first') (hrest : ∀ item ∈ rest, Legible item) (hrest' : ∀ item ∈ rest', Legible item)
    (h : spell first rest = spell first' rest') :
    first = first' ∧ (rest.flatMap fun item => item.1 :: Utf8.encode item.2) =
      rest'.flatMap fun item => item.1 :: Utf8.encode item.2 := by
  have hencode : Utf8.encode first = Utf8.encode first' := by
    rw [← takeWhile_spell hfirst hrest, h, takeWhile_spell hfirst' hrest']
  obtain rfl := Utf8.encode_injective hencode
  exact ⟨rfl, List.append_cancel_left h⟩

/-- Where no text holds a mark, the texts and the marks can be read back. -/
theorem spell_inj {first first' : String} {rest rest' : List (UInt8 × String)} (hfirst : Plain first)
    (hfirst' : Plain first') (hrest : ∀ item ∈ rest, Legible item) (hrest' : ∀ item ∈ rest', Legible item)
    (h : spell first rest = spell first' rest') : first = first' ∧ rest = rest' := by
  induction rest generalizing first first' rest' with
  | nil =>
    obtain ⟨rfl, htail⟩ := spell_cut hfirst hfirst' hrest hrest' h
    cases rest' with
    | nil => exact ⟨rfl, rfl⟩
    | cons item' rest' => simp at htail
  | cons item rest ih =>
    obtain ⟨rfl, htail⟩ := spell_cut hfirst hfirst' hrest hrest' h
    cases rest' with
    | nil => simp at htail
    | cons item' rest' =>
      obtain ⟨hitem, hitems⟩ := List.forall_mem_cons.1 hrest
      obtain ⟨hitem', hitems'⟩ := List.forall_mem_cons.1 hrest'
      obtain ⟨hmark, hspell⟩ := List.cons.inj htail
      obtain ⟨htext, htexts⟩ := ih hitem.2 hitem'.2 hitems hitems' hspell
      exact ⟨rfl, by rw [Prod.ext hmark htext, htexts]⟩

end Marked

/-! ### Artifacts -/

namespace Artifact

open Marked

def texts (a : Artifact) : List String :=
  a.pname :: a.version :: a.platform.name :: (a.patches ++ a.inputs ++ a.attrs.entries.flatMap fun e => [e.1, e.2])

/-- What follows the name of an artifact where its definition is written down. -/
def items (a : Artifact) : List (UInt8 × String) :=
  (0, a.version) :: (0, a.platform.name) ::
    (a.patches.map (1, ·) ++ a.inputs.map (2, ·) ++ a.attrs.entries.flatMap fun e => [(3, e.1), (0, e.2)])

theorem octets_eq_spell (a : Artifact) : a.octets = spell a.pname a.items := by
  simp [octets, spell, items, List.flatMap_append, List.flatMap_map, List.flatMap_assoc]

theorem texts_eq (a : Artifact) : a.texts = a.pname :: a.items.map Prod.snd := by
  simp [texts, items, List.map_flatMap, Function.comp_def]

theorem mark_le_three (a : Artifact) : ∀ item ∈ a.items, item.1.toNat ≤ 3 := by
  have hmark : ∀ item ∈ a.items, item.1 ∈ [0, 1, 2, 3] := by
    intro item hitem
    simp only [items, List.mem_cons, List.mem_append, List.mem_map, List.mem_flatMap, List.not_mem_nil, or_false] at hitem
    rcases hitem with rfl | rfl | (⟨p, -, rfl⟩ | ⟨i, -, rfl⟩) | ⟨e, -, rfl | rfl⟩ <;> simp
  have hsmall : ∀ mark ∈ ([0, 1, 2, 3] : List UInt8), mark.toNat ≤ 3 := by simp
  exact fun item hitem => hsmall _ (hmark item hitem)

theorem legible_items {a : Artifact} (h : ∀ text ∈ a.texts, Plain text) : ∀ item ∈ a.items, Legible item := by
  rw [texts_eq] at h
  intro item hitem
  exact ⟨a.mark_le_three item hitem, h _ (List.mem_cons_of_mem _ (List.mem_map_of_mem hitem))⟩

theorem eq_of_octets_eq {a a' : Artifact} (ha : ∀ text ∈ a.texts, Plain text) (ha' : ∀ text ∈ a'.texts, Plain text)
    (h : a.octets = a'.octets) : a = a' := by
  rw [octets_eq_spell, octets_eq_spell] at h
  obtain ⟨hpname, hitems⟩ := spell_inj (ha _ List.mem_cons_self) (ha' _ List.mem_cons_self) (legible_items ha)
    (legible_items ha') h
  simp only [items, List.cons.injEq, Prod.mk.injEq, true_and] at hitems
  obtain ⟨hversion, hplatform, hlists⟩ := hitems
  have hnone : ∀ entries : List (String × String), entries.flatMap (fun _ => ([] : List String)) = [] :=
    fun entries => List.flatMap_eq_nil_iff.2 fun _ _ => rfl
  have hpatches : a.patches = a'.patches := by
    have hmarked := congrArg (fun l => (l.filter (·.1 = 1)).map Prod.snd) hlists
    simpa [List.filter_flatMap, List.filter_map, List.map_flatMap, Function.comp_def, hnone] using hmarked
  have hinputs : a.inputs = a'.inputs := by
    have hmarked := congrArg (fun l => (l.filter (·.1 = 2)).map Prod.snd) hlists
    simpa [List.filter_flatMap, List.filter_map, List.map_flatMap, Function.comp_def, hnone] using hmarked
  rw [hpatches, hinputs] at hlists
  have hentries : a.attrs.entries = a'.attrs.entries := by
    have hpairs := List.forall₂_of_flatMap_pair (List.append_cancel_left hlists)
    rw [← List.forall₂_eq_eq_eq]
    refine hpairs.imp fun e e' he => ?_
    simp only [Prod.mk.injEq, true_and] at he
    exact Prod.ext he.1 he.2
  obtain ⟨pname, version, ⟨platform⟩, patches, inputs, ⟨attrs, sorted⟩⟩ := a
  obtain ⟨pname', version', ⟨platform'⟩, patches', inputs', ⟨attrs', sorted'⟩⟩ := a'
  simp only at hpname hversion hplatform hpatches hinputs hentries
  subst hpname hversion hplatform hpatches hinputs hentries
  rfl

end Artifact

/-! ### Package sets -/

namespace PackageSet

open Marked

def texts (s : PackageSet) : List String :=
  s.platform.name :: s.packages.entries.flatMap fun e => e.1 :: e.2.texts

/-- All octet sequences that are hashed for the digest of a set. -/
def hashed (s : PackageSet) : List (List UInt8) := s.octets :: s.packages.entries.map (·.2.octets)

theorem octets_eq_spell (s : PackageSet) :
    s.octets = spell s.platform.name (s.packages.entries.flatMap fun e => [(0, e.1), (0, e.2.digest)]) := by
  simp [octets, spell, List.flatMap_assoc]

theorem plain_name {s : PackageSet} (hs : ∀ text ∈ s.texts, Plain text) {e : String × Artifact}
    (he : e ∈ s.packages.entries) : Plain e.1 :=
  hs _ (List.mem_cons_of_mem _ (List.mem_flatMap.2 ⟨e, he, List.mem_cons_self⟩))

theorem plain_artifact {s : PackageSet} (hs : ∀ text ∈ s.texts, Plain text) {e : String × Artifact}
    (he : e ∈ s.packages.entries) : ∀ text ∈ e.2.texts, Plain text :=
  fun text htext => hs text (List.mem_cons_of_mem _ (List.mem_flatMap.2 ⟨e, he, List.mem_cons_of_mem _ htext⟩))

theorem forall₂_of_octets_eq {s s' : PackageSet} (hs : ∀ text ∈ s.texts, Plain text)
    (hs' : ∀ text ∈ s'.texts, Plain text) (h : s.octets = s'.octets) :
    s.platform = s'.platform ∧
      List.Forall₂ (fun e e' => e.1 = e'.1 ∧ e.2.digest = e'.2.digest) s.packages.entries s'.packages.entries := by
  have hlegible : ∀ set : PackageSet, (∀ text ∈ set.texts, Plain text) →
      ∀ item ∈ set.packages.entries.flatMap fun e => [((0 : UInt8), e.1), (0, e.2.digest)], Legible item := by
    intro set hset item hitem
    obtain ⟨e, he, hitem⟩ := List.mem_flatMap.1 hitem
    simp only [List.mem_cons, List.not_mem_nil, or_false] at hitem
    rcases hitem with rfl | rfl
    · exact ⟨Nat.zero_le 3, plain_name hset he⟩
    · exact ⟨Nat.zero_le 3, fun c hc => Sha256.lt_of_mem_digest hc⟩
  rw [octets_eq_spell, octets_eq_spell] at h
  obtain ⟨hplatform, hitems⟩ := spell_inj (hs _ List.mem_cons_self) (hs' _ List.mem_cons_self) (hlegible s hs)
    (hlegible s' hs') h
  refine ⟨?_, (List.forall₂_of_flatMap_pair hitems).imp fun e e' he => ?_⟩
  · cases hp : s.platform
    cases hp' : s'.platform
    simp_all
  · simpa using he

theorem eq_of_digest_eq {s s' : PackageSet} (hs : ∀ text ∈ s.texts, Plain text) (hs' : ∀ text ∈ s'.texts, Plain text)
    (hfree : ∀ x ∈ s.hashed, ∀ y ∈ s'.hashed, Sha256.hash x = Sha256.hash y → x = y) (h : s.digest = s'.digest) :
    s = s' := by
  have hoctets : s.octets = s'.octets :=
    hfree _ List.mem_cons_self _ List.mem_cons_self (Sha256.hash_eq_of_digest_eq h)
  obtain ⟨hplatform, hdigests⟩ := forall₂_of_octets_eq hs hs' hoctets
  have hentries : s.packages.entries = s'.packages.entries := by
    rw [← List.forall₂_eq_eq_eq, List.forall₂_iff_zip]
    refine ⟨hdigests.length_eq, fun {e e'} hzip => ?_⟩
    obtain ⟨hname, hdigest⟩ := (List.forall₂_iff_zip.1 hdigests).2 hzip
    obtain ⟨he, he'⟩ := List.of_mem_zip hzip
    have hsame : e.2.octets = e'.2.octets :=
      hfree _ (List.mem_cons_of_mem _ (List.mem_map_of_mem he)) _ (List.mem_cons_of_mem _ (List.mem_map_of_mem he'))
        (Sha256.hash_eq_of_digest_eq hdigest)
    exact Prod.ext hname (Artifact.eq_of_octets_eq (plain_artifact hs he) (plain_artifact hs' he') hsame)
  obtain ⟨platform, ⟨entries, sorted⟩⟩ := s
  obtain ⟨platform', ⟨entries', sorted'⟩⟩ := s'
  simp only at hplatform hentries
  subst hplatform hentries
  rfl

end PackageSet

/-- The digest of a package set identifies the whole set, short of a collision: where no text holds a character up to
U+0003, two sets with one digest are equal, or octets hashed for the one and octets hashed for the other differ and have the
same hash. -/
theorem packageSet_eq_or_collision {s s' : PackageSet} (hs : ∀ text ∈ s.texts, Marked.Plain text)
    (hs' : ∀ text ∈ s'.texts, Marked.Plain text) (h : s.digest = s'.digest) :
    s = s' ∨ ∃ x ∈ s.hashed, ∃ y ∈ s'.hashed, x ≠ y ∧ Sha256.hash x = Sha256.hash y := by
  by_cases hfree : ∀ x ∈ s.hashed, ∀ y ∈ s'.hashed, Sha256.hash x = Sha256.hash y → x = y
  · exact .inl (PackageSet.eq_of_digest_eq hs hs' hfree h)
  · push Not at hfree
    obtain ⟨x, hx, y, hy, hhash, hne⟩ := hfree
    exact .inr ⟨x, hx, y, hy, hne, hhash⟩

def plainTool : Artifact := { pname := "tool", version := "", platform := ⟨"x86_64-linux"⟩ }

/-- The same package under another name, with patches, an input and attributes, some of them empty. -/
def dressedTool : Artifact :=
  [.pname "hello", .version "2.12", .addPatch "fix.patch", .addPatch "", .addInput "tool", .setAttr "lto" "on",
    .setAttr "doc" ""].foldl Artifact.edit plainTool

def tools : PackageSet := ⟨⟨"x86_64-linux"⟩, .ofList [("hello", dressedTool), ("tool", plainTool)]⟩

/-- Both packages, collected in another order and after one of them was replaced. -/
def toolsAnew : PackageSet :=
  ⟨⟨"x86_64-linux"⟩, .ofList [("tool", dressedTool), ("tool", plainTool), ("hello", dressedTool)]⟩

theorem tools_eq_or_collision :
    (∀ text ∈ tools.texts, Marked.Plain text) ∧ (∀ text ∈ toolsAnew.texts, Marked.Plain text) ∧
    tools.digest = toolsAnew.digest ∧
    (tools = toolsAnew ∨ ∃ x ∈ tools.hashed, ∃ y ∈ toolsAnew.hashed, x ≠ y ∧ Sha256.hash x = Sha256.hash y) := by
  have hplain : ∀ text ∈ tools.texts, Marked.Plain text := by decide +kernel
  have hplain' : ∀ text ∈ toolsAnew.texts, Marked.Plain text := by decide +kernel
  have hdigest : tools.digest = toolsAnew.digest := by
    have hpackages : tools.packages = toolsAnew.packages := by decide +kernel
    rw [PackageSet.digest, PackageSet.digest, PackageSet.octets, PackageSet.octets, hpackages]
    rfl
  exact ⟨hplain, hplain', hdigest, packageSet_eq_or_collision hplain hplain' hdigest⟩

end HostFleet
