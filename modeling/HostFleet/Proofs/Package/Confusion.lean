import HostFleet.Proofs.Package.Digest

/-!
# Artifacts that are taken for each other

The marks between the texts of an artifact are characters like any other, and a text may hold them. Then it reads like
several texts. What is left of an artifact in its octets are its fragments: all its texts cut at the marks inside them. Two
artifacts have the same octets exactly if they have the same fragments.

Each mark is needed in some places only. Where no text holds a mark that could end it, the fields are read back one after
another, and equal octets come from equal artifacts.
-/

namespace HostFleet

namespace Marked

/-! ### Texts that are cut at their marks -/

/-- A text cut at its marks: what stands before the first mark, and each mark with what follows it. -/
def cut : List Char → List Char × List (UInt8 × List Char)
  | [] => ([], [])
  | c :: rest =>
    if c.toNat ≤ 3 then ([], (UInt8.ofNat c.toNat, (cut rest).1) :: (cut rest).2)
    else (c :: (cut rest).1, (cut rest).2)

/-- What stands in a text before its first mark. -/
def head (text : String) : String := .ofList (cut text.toList).1

/-- The marks in a text, each with what follows it. -/
def tail (text : String) : List (UInt8 × String) := (cut text.toList).2.map fun item => (item.1, .ofList item.2)

theorem plain_cut (cs : List Char) :
    (∀ c ∈ (cut cs).1, 3 < c.toNat) ∧ ∀ item ∈ (cut cs).2, item.1.toNat ≤ 3 ∧ ∀ c ∈ item.2, 3 < c.toNat := by
  induction cs with
  | nil => simp [cut]
  | cons c rest ih =>
    obtain ⟨hfirst, hitems⟩ := ih
    by_cases hmark : c.toNat ≤ 3
    · have hsmall : (UInt8.ofNat c.toNat).toNat ≤ 3 := by
        rw [UInt8.toNat_ofNat']
        omega
      simp only [cut, if_pos hmark, List.forall_mem_cons]
      exact ⟨by simp, ⟨hsmall, hfirst⟩, hitems⟩
    · simp only [cut, if_neg hmark, List.forall_mem_cons]
      exact ⟨⟨by omega, hfirst⟩, hitems⟩

theorem plain_head (text : String) : Plain (head text) := by
  rw [Plain, head, String.toList_ofList]
  exact (plain_cut text.toList).1

theorem legible_tail (text : String) : ∀ item ∈ tail text, Legible item := by
  intro item hitem
  obtain ⟨piece, hpiece, rfl⟩ := List.mem_map.1 hitem
  obtain ⟨hmark, hplain⟩ := (plain_cut text.toList).2 piece hpiece
  refine ⟨hmark, ?_⟩
  rw [Plain, String.toList_ofList]
  exact hplain

theorem flatMap_encodeChar_eq (cs : List Char) :
    cs.flatMap String.utf8EncodeChar = (cut cs).1.flatMap String.utf8EncodeChar ++
      (cut cs).2.flatMap fun item => item.1 :: item.2.flatMap String.utf8EncodeChar := by
  induction cs with
  | nil => rfl
  | cons c rest ih =>
    by_cases hmark : c.toNat ≤ 3
    · simp only [cut, if_pos hmark, List.flatMap_cons, List.flatMap_nil, List.nil_append, ih, List.cons_append,
        Utf8.encodeChar_of_lt (Nat.lt_of_le_of_lt hmark (by decide))]
    · simp only [cut, if_neg hmark, List.flatMap_cons, ih, List.append_assoc]

/-- A text is spelled as its fragments are. -/
theorem encode_eq_spell (text : String) : Utf8.encode text = spell (head text) (tail text) := by
  rw [spell, head, tail, Utf8.encode, Utf8.encode, String.toList_ofList, List.flatMap_map, flatMap_encodeChar_eq]
  simp only [Utf8.encode, String.toList_ofList]

/-- Items with each text cut at its marks. -/
def cutAll (items : List (UInt8 × String)) : List (UInt8 × String) :=
  items.flatMap fun item => (item.1, head item.2) :: tail item.2

theorem spell_eq_spell_cutAll (first : String) (rest : List (UInt8 × String)) :
    spell first rest = spell (head first) (tail first ++ cutAll rest) := by
  have hitem : ∀ item : UInt8 × String, item.1 :: Utf8.encode item.2 =
      ((item.1, head item.2) :: tail item.2).flatMap fun piece => piece.1 :: Utf8.encode piece.2 := by
    intro item
    rw [encode_eq_spell item.2]
    rfl
  have hrest : (rest.flatMap fun item => item.1 :: Utf8.encode item.2) =
      (cutAll rest).flatMap fun piece => piece.1 :: Utf8.encode piece.2 := by
    rw [cutAll, List.flatMap_assoc]
    exact congrArg rest.flatMap (funext hitem)
  rw [spell, encode_eq_spell first, hrest, spell, spell, List.flatMap_append, List.append_assoc]

theorem legible_cutAll {items : List (UInt8 × String)} (h : ∀ item ∈ items, item.1.toNat ≤ 3) :
    ∀ piece ∈ cutAll items, Legible piece := by
  intro piece hpiece
  obtain ⟨item, hitem, hmem⟩ := List.mem_flatMap.1 hpiece
  rcases List.mem_cons.1 hmem with rfl | htail
  · exact ⟨h item hitem, plain_head item.2⟩
  · exact legible_tail item.2 piece htail

/-! ### Texts that only some marks may end -/

/-- None of these marks is in the text. -/
def Free (marks : List Nat) (text : String) : Prop := ∀ c ∈ text.toList, c.toNat ∉ marks

instance (marks : List Nat) : DecidablePred (Free marks) :=
  fun text => List.decidableBAll (fun c : Char => c.toNat ∉ marks) text.toList

/-- Octets that end a text which is free of some marks. -/
def Stops (marks : List Nat) (octets : List UInt8) : Prop := ∀ b ∈ octets.head?, b.toNat ∈ marks

theorem Free.not_mem {marks : List Nat} {text : String} (h : Free marks text) (hmarks : ∀ m ∈ marks, m < 0x80) :
    ∀ b ∈ Utf8.encode text, b.toNat ∉ marks := by
  intro b hb hmark
  obtain ⟨c, hc, hmem⟩ := List.mem_flatMap.1 hb
  have hlow := hmarks _ hmark
  rcases Utf8.octet_of_mem_encodeChar hmem with hsame | hhigh
  · exact h c hc (hsame ▸ hmark)
  · omega

/-- What stands before the first of some marks is read back. -/
theorem append_inj_of_free {marks : List Nat} (hmarks : ∀ m ∈ marks, m < 0x80) {text text' : String}
    {rest rest' : List UInt8} (htext : Free marks text) (htext' : Free marks text') (hrest : Stops marks rest)
    (hrest' : Stops marks rest') (h : Utf8.encode text ++ rest = Utf8.encode text' ++ rest') : text = text' ∧ rest = rest' := by
  have htake : ∀ {t : String} {r : List UInt8}, Free marks t → Stops marks r →
      (Utf8.encode t ++ r).takeWhile (fun b => b.toNat ∉ marks) = Utf8.encode t := by
    intro t r ht hr
    have hstop : r.takeWhile (fun b => b.toNat ∉ marks) = [] := by
      cases r with
      | nil => rfl
      | cons b more => exact List.takeWhile_cons_of_neg (by simpa using hr b rfl)
    rw [List.takeWhile_append_of_pos (fun b hb => by simpa using ht.not_mem hmarks b hb), hstop, List.append_nil]
  have hsame : Utf8.encode text = Utf8.encode text' := by rw [← htake htext hrest, h, htake htext' hrest']
  rw [hsame] at h
  exact ⟨Utf8.encode_injective hsame, List.append_cancel_left h⟩

/-- Texts with one mark before each. -/
def row (mark : UInt8) (texts : List String) : List UInt8 := texts.flatMap fun text => mark :: Utf8.encode text

theorem stops_row_append {marks : List Nat} {mark : UInt8} (hmark : mark.toNat ∈ marks) (texts : List String)
    {rest : List UInt8} (hrest : Stops marks rest) : Stops marks (row mark texts ++ rest) := by
  cases texts with
  | nil => exact hrest
  | cons text more =>
    intro b hb
    obtain rfl : mark = b := by simpa [row] using hb
    exact hmark

/-- A row ends before a mark that is not its own. -/
theorem row_append_inj (mark : UInt8) (others : List Nat) (hmarks : ∀ m ∈ mark.toNat :: others, m < 0x80)
    (hother : mark.toNat ∉ others) {texts texts' : List String} {rest rest' : List UInt8}
    (htexts : ∀ text ∈ texts, Free (mark.toNat :: others) text) (htexts' : ∀ text ∈ texts', Free (mark.toNat :: others) text)
    (hrest : Stops others rest) (hrest' : Stops others rest') (h : row mark texts ++ rest = row mark texts' ++ rest') :
    texts = texts' ∧ rest = rest' := by
  have hwide : ∀ {r : List UInt8}, Stops others r → Stops (mark.toNat :: others) r :=
    fun hr b hb => List.mem_cons_of_mem _ (hr b hb)
  have hends : ∀ {r more : List UInt8}, Stops others r → r ≠ mark :: more := by
    intro r more hr heq
    exact hother (hr mark (by rw [heq]; rfl))
  induction texts generalizing texts' with
  | nil =>
    cases texts' with
    | nil => exact ⟨rfl, h⟩
    | cons text' more' => exact absurd h (hends hrest)
  | cons text more ih =>
    cases texts' with
    | nil => exact absurd h.symm (hends hrest')
    | cons text' more' =>
      obtain ⟨htext, hmore⟩ := List.forall_mem_cons.1 htexts
      obtain ⟨htext', hmore'⟩ := List.forall_mem_cons.1 htexts'
      have hafter : Utf8.encode text ++ (row mark more ++ rest) = Utf8.encode text' ++ (row mark more' ++ rest') := by
        simpa [row] using h
      obtain ⟨rfl, hrow⟩ := append_inj_of_free hmarks htext htext' (stops_row_append List.mem_cons_self more (hwide hrest))
        (stops_row_append List.mem_cons_self more' (hwide hrest')) hafter
      obtain ⟨rfl, hend⟩ := ih hmore hmore' hrow
      exact ⟨rfl, hend⟩

/-- Names with values: a zero ends a name, and the mark before the next name ends a value. -/
def pairs (entries : List (String × String)) : List UInt8 :=
  entries.flatMap fun e => 3 :: Utf8.encode e.1 ++ 0 :: Utf8.encode e.2

theorem stops_pairs (entries : List (String × String)) : Stops [3] (pairs entries) := by
  cases entries with
  | nil => simp [Stops, pairs]
  | cons e more =>
    intro b hb
    obtain rfl : 3 = b := by simpa [pairs] using hb
    exact List.mem_singleton_self _

theorem pairs_inj {entries entries' : List (String × String)} (hfree : ∀ e ∈ entries, Free [0] e.1 ∧ Free [3] e.2)
    (hfree' : ∀ e ∈ entries', Free [0] e.1 ∧ Free [3] e.2) (h : pairs entries = pairs entries') : entries = entries' := by
  induction entries generalizing entries' with
  | nil =>
    cases entries' with
    | nil => rfl
    | cons e' more' => simp [pairs] at h
  | cons e more ih =>
    cases entries' with
    | nil => simp [pairs] at h
    | cons e' more' =>
      obtain ⟨⟨hname, hvalue⟩, hmore⟩ := List.forall_mem_cons.1 hfree
      obtain ⟨⟨hname', hvalue'⟩, hmore'⟩ := List.forall_mem_cons.1 hfree'
      have hafter : Utf8.encode e.1 ++ 0 :: (Utf8.encode e.2 ++ pairs more) =
          Utf8.encode e'.1 ++ 0 :: (Utf8.encode e'.2 ++ pairs more') := by
        simpa [pairs] using h
      obtain ⟨hnames, hrest⟩ := append_inj_of_free (by decide) hname hname' (by simp [Stops]) (by simp [Stops]) hafter
      obtain ⟨hvalues, hpairs⟩ := append_inj_of_free (by decide) hvalue hvalue' (stops_pairs more) (stops_pairs more')
        (List.cons.inj hrest).2
      rw [Prod.ext hnames hvalues, ih hmore hmore' hpairs]

end Marked

namespace Artifact

open Marked

/-- What the octets of an artifact show of its texts: all of them, cut at the marks inside. -/
def fragments (a : Artifact) : String × List (UInt8 × String) := (head a.pname, tail a.pname ++ cutAll a.items)

theorem octets_eq_spell_fragments (a : Artifact) : a.octets = spell a.fragments.1 a.fragments.2 := by
  rw [octets_eq_spell, spell_eq_spell_cutAll]
  rfl

theorem octets_eq_iff_fragments_eq (a a' : Artifact) : a.octets = a'.octets ↔ a.fragments = a'.fragments := by
  have hlegible : ∀ a : Artifact, ∀ piece ∈ a.fragments.2, Legible piece := by
    intro a piece hpiece
    rcases List.mem_append.1 hpiece with htail | hcut
    · exact legible_tail _ piece htail
    · exact legible_cutAll a.mark_le_three piece hcut
  constructor
  · intro h
    rw [octets_eq_spell_fragments, octets_eq_spell_fragments] at h
    obtain ⟨hhead, htail⟩ := spell_inj (plain_head _) (plain_head _) (hlegible a) (hlegible a') h
    exact Prod.ext hhead htail
  · intro h
    rw [octets_eq_spell_fragments, h, ← octets_eq_spell_fragments]

/-- No text of the artifact holds a mark that could end it. -/
structure Separable (a : Artifact) : Prop where
  pname : Free [0] a.pname
  version : Free [0] a.version
  platform : Free [1, 2, 3] a.platform.name
  patches : ∀ patch ∈ a.patches, Free [1, 2, 3] patch
  inputs : ∀ input ∈ a.inputs, Free [2, 3] input
  attrs : ∀ e ∈ a.attrs.entries, Free [0] e.1 ∧ Free [3] e.2

/-- The platform stands like a patch before the patches. -/
theorem octets_eq_rows (a : Artifact) : a.octets = Utf8.encode a.pname ++ 0 :: (Utf8.encode a.version ++ 0 ::
    (Utf8.encode a.platform.name ++ (row 1 a.patches ++ (row 2 a.inputs ++ pairs a.attrs.entries)))) := by
  simp [octets, row, pairs]

theorem eq_of_octets_eq_of_separable {a a' : Artifact} (ha : a.Separable) (ha' : a'.Separable) (h : a.octets = a'.octets) :
    a = a' := by
  rw [octets_eq_rows, octets_eq_rows] at h
  obtain ⟨hpname, h⟩ := append_inj_of_free (by decide) ha.pname ha'.pname (by simp [Stops]) (by simp [Stops]) h
  obtain ⟨hversion, h⟩ := append_inj_of_free (by decide) ha.version ha'.version (by simp [Stops]) (by simp [Stops])
    (List.cons.inj h).2
  have hinputs : ∀ b : Artifact, Stops [2, 3] (row 2 b.inputs ++ pairs b.attrs.entries) := fun b =>
    stops_row_append List.mem_cons_self _ fun octet hoctet => List.mem_cons_of_mem _ (stops_pairs _ octet hoctet)
  have hpatched : row 1 (a.platform.name :: a.patches) ++ (row 2 a.inputs ++ pairs a.attrs.entries) =
      row 1 (a'.platform.name :: a'.patches) ++ (row 2 a'.inputs ++ pairs a'.attrs.entries) := by
    simpa [row] using (List.cons.inj h).2
  obtain ⟨hnames, h⟩ := row_append_inj 1 [2, 3] (by decide) (by decide)
    (List.forall_mem_cons.2 ⟨ha.platform, ha.patches⟩) (List.forall_mem_cons.2 ⟨ha'.platform, ha'.patches⟩)
    (hinputs a) (hinputs a') hpatched
  obtain ⟨hplatform, hpatches⟩ := List.cons.inj hnames
  obtain ⟨hinputs, h⟩ := row_append_inj 2 [3] (by decide) (by decide) ha.inputs ha'.inputs (stops_pairs _)
    (stops_pairs _) h
  have hattrs : a.attrs.entries = a'.attrs.entries := pairs_inj ha.attrs ha'.attrs h
  obtain ⟨pname, version, ⟨platform⟩, patches, inputs, ⟨attrs, sorted⟩⟩ := a
  obtain ⟨pname', version', ⟨platform'⟩, patches', inputs', ⟨attrs', sorted'⟩⟩ := a'
  simp only at hpname hversion hplatform hpatches hinputs hattrs
  subst hpname hversion hplatform hpatches hinputs hattrs
  rfl

end Artifact

/-- Two artifacts are hashed alike exactly if their texts, cut at the marks inside them, are the same. They have one digest if
that is so, or else if their octets differ and have the same hash. Where no text holds a mark that could end it, only an
artifact itself has the same fragments. -/
theorem artifact_confused_iff (a a' : Artifact) :
    (a.octets = a'.octets ↔ a.fragments = a'.fragments) ∧
    (a.digest = a'.digest ↔ a.fragments = a'.fragments ∨
      a.octets ≠ a'.octets ∧ Sha256.hash a.octets = Sha256.hash a'.octets) ∧
    (a.Separable → a'.Separable → (a.fragments = a'.fragments ↔ a = a')) := by
  have hoctets : a.octets = a'.octets ↔ a.fragments = a'.fragments := Artifact.octets_eq_iff_fragments_eq a a'
  refine ⟨hoctets, ⟨fun h => ?_, fun h => ?_⟩, fun ha ha' => ⟨fun h => ?_, fun h => congrArg _ h⟩⟩
  · by_cases hsame : a.octets = a'.octets
    · exact .inl (hoctets.1 hsame)
    · exact .inr ⟨hsame, Sha256.hash_eq_of_digest_eq h⟩
  · rcases h with hsame | ⟨-, hhash⟩
    · rw [Artifact.digest, Artifact.digest, hoctets.2 hsame]
    · rw [Artifact.digest, Artifact.digest, Sha256.digest, Sha256.digest, hhash]
  · exact Artifact.eq_of_octets_eq_of_separable ha ha' (hoctets.2 h)

/-- A tool with marks in many texts, none of which could end its text. -/
def oddTool : Artifact where
  pname := "tool\x01"
  version := "2\x02"
  platform := ⟨"x86\x0064"⟩
  patches := ["fix\x00doc"]
  inputs := ["\x01hello"]
  attrs := .ofList [("lto\x03", "on\x01\x00")]

theorem oddTool_not_confused :
    oddTool.Separable ∧ (oddTool.edit (.addPatch "doc")).Separable ∧
    oddTool.octets ≠ (oddTool.edit (.addPatch "doc")).octets := by
  have hodd : oddTool.Separable := by constructor <;> decide +kernel
  have hmore : (oddTool.edit (.addPatch "doc")).Separable := by constructor <;> decide +kernel
  have hne : oddTool ≠ oddTool.edit (.addPatch "doc") := by decide +kernel
  obtain ⟨hoctets, -, hsame⟩ := artifact_confused_iff oddTool (oddTool.edit (.addPatch "doc"))
  exact ⟨hodd, hmore, fun h => hne ((hsame hodd hmore).1 (hoctets.1 h))⟩

/-- A version that holds a zero. -/
def lateZero : Artifact := { pname := "a", version := "b\x00c", platform := ⟨"x"⟩ }

/-- The same texts with the zero in the name. -/
def earlyZero : Artifact := { pname := "a\x00b", version := "c", platform := ⟨"x"⟩ }

theorem zeros_confused :
    lateZero ≠ earlyZero ∧ lateZero.octets = earlyZero.octets ∧ lateZero.digest = earlyZero.digest := by
  have hoctets : lateZero.octets = earlyZero.octets := by decide +kernel
  exact ⟨by decide, hoctets, congrArg Sha256.digest hoctets⟩

end HostFleet
