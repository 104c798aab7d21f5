import Mathlib.Data.List.Basic
import HostFleet.Text.Utf8

/-!
# Octets and the text they encode

Encoding loses nothing, and an octet below 0x80 stands for itself wherever it occurs. Decoding is the inverse of encoding on
the octets that it accepts: `Held` says which octets an open character has taken, and one octet more completes the
character, keeps it open or breaks it off. So two names that decode to one text are one name, and what stands before an
octet below 0x80 can be decoded by itself. Octets that encode a text, and no others, come back when they are read with
replacement characters and written again.
-/

namespace HostFleet.Utf8

/-! ### Encoding -/

theorem toByteArray_encode (s : String) : (encode s).toByteArray = s.toByteArray := by
  conv_rhs => rw [← String.ofList_toList (s := s)]
  rw [String.toByteArray_ofList]
  rfl

theorem encode_injective : Function.Injective encode := by
  intro s s' h
  have hbytes : s.toByteArray = s'.toByteArray := by rw [← toByteArray_encode, h, toByteArray_encode]
  exact String.toByteArray_inj.1 hbytes

theorem octet_of_mem_encodeChar {c : Char} {octet : UInt8} (h : octet ∈ String.utf8EncodeChar c) :
    octet.toNat = c.toNat ∨ 0x80 ≤ octet.toNat := by
  have hc : c.val.toNat = c.toNat := rfl
  simp only [String.utf8EncodeChar] at h
  split at h
  · left
    obtain rfl := List.mem_singleton.1 h
    rw [UInt8.toNat_ofNat']
    omega
  · right
    split at h
    · simp only [List.mem_cons, List.not_mem_nil, or_false] at h
      rcases h with rfl | rfl <;> rw [UInt8.toNat_ofNat'] <;> omega
    · split at h <;> simp only [List.mem_cons, List.not_mem_nil, or_false] at h
      · rcases h with rfl | rfl | rfl <;> rw [UInt8.toNat_ofNat'] <;> omega
      · rcases h with rfl | rfl | rfl | rfl <;> rw [UInt8.toNat_ofNat'] <;> omega

theorem encodeChar_of_lt {c : Char} (h : c.toNat < 0x80) : String.utf8EncodeChar c = [UInt8.ofNat c.toNat] := by
  have hascii : c.val.toNat ≤ 0x7F := Nat.le_of_lt_succ h
  simp only [String.utf8EncodeChar]
  rw [if_pos hascii]
  rfl

/-! ### Characters of one to four octets -/

private theorem val_ofNat {n : Nat} (h : n < 0xD800 ∨ 0xDFFF < n ∧ n < 0x110000) : (Char.ofNat n).val.toNat = n := by
  have hvalid : n.isValidChar := h
  rw [Char.ofNat, dif_pos hvalid]
  rfl

private theorem ofNat_eq {a : UInt8} {n : Nat} (h : a.toNat = n) : UInt8.ofNat n = a := by
  rw [← h, UInt8.ofNat_toNat]

private theorem encodeChar_one {a : UInt8} (ha : a.toNat < 0x80) : String.utf8EncodeChar (Char.ofNat a.toNat) = [a] := by
  have hval := val_ofNat (n := a.toNat) (by omega)
  simp only [String.utf8EncodeChar, hval]
  rw [if_pos (by omega), ofNat_eq rfl]

private theorem encodeChar_two {a b : UInt8} {n : Nat} (ha : a.toNat = 0xC0 + n / 64) (hb : b.toNat = 0x80 + n % 64)
    (hn : 0x80 ≤ n ∧ n < 0x800) : String.utf8EncodeChar (Char.ofNat n) = [a, b] := by
  have hval := val_ofNat (n := n) (by omega)
  simp only [String.utf8EncodeChar, hval]
  rw [if_neg (by omega), if_pos (by omega), ofNat_eq (a := a) (by omega), ofNat_eq (a := b) (by omega)]

private theorem encodeChar_three {a b c : UInt8} {n : Nat} (ha : a.toNat = 0xE0 + n / 4096)
    (hb : b.toNat = 0x80 + n / 64 % 64) (hc : c.toNat = 0x80 + n % 64) (hn : 0x800 ≤ n ∧ n < 0x10000)
    (hscalar : n < 0xD800 ∨ 0xDFFF < n) : String.utf8EncodeChar (Char.ofNat n) = [a, b, c] := by
  have hval := val_ofNat (n := n) (by omega)
  simp only [String.utf8EncodeChar, hval]
  rw [if_neg (by omega), if_neg (by omega), if_pos (by omega), ofNat_eq (a := a) (by omega), ofNat_eq (a := b) (by omega),
    ofNat_eq (a := c) (by omega)]

private theorem encodeChar_four {a b c d : UInt8} {n : Nat} (ha : a.toNat = 0xF0 + n / 262144)
    (hb : b.toNat = 0x80 + n / 4096 % 64) (hc : c.toNat = 0x80 + n / 64 % 64) (hd : d.toNat = 0x80 + n % 64)
    (hn : 0x10000 ≤ n ∧ n < 0x110000) : String.utf8EncodeChar (Char.ofNat n) = [a, b, c, d] := by
  have hval := val_ofNat (n := n) (by omega)
  simp only [String.utf8EncodeChar, hval]
  rw [if_neg (by omega), if_neg (by omega), if_neg (by omega), ofNat_eq (a := a) (by omega), ofNat_eq (a := b) (by omega),
    ofNat_eq (a := c) (by omega), ofNat_eq (a := d) (by omega)]

/-! ### One octet more -/

/-- The octets that an open character has taken. The bounds keep every completion within the characters of its length. -/
inductive Held : Option Open → List UInt8 → Prop
  | between : Held none []
  | two {code : Nat} {a : UInt8} (ha : a.toNat = 0xC0 + code) (hcode : 2 ≤ code ∧ code < 0x20) :
    Held (some ⟨1, 0x80, 0xBF, code⟩) [a]
  | three {low high code : Nat} {a : UInt8} (ha : a.toNat = 0xE0 + code) (hcode : code < 0x10)
    (hlow : 0x80 ≤ low ∧ (code = 0 → 0xA0 ≤ low)) (hhigh : high ≤ 0xBF ∧ (code = 0xD → high ≤ 0x9F)) :
    Held (some ⟨2, low, high, code⟩) [a]
  | lastOfThree {code : Nat} {a b : UInt8} (ha : a.toNat = 0xE0 + code / 64) (hb : b.toNat = 0x80 + code % 64)
    (hcode : 0x20 ≤ code ∧ code < 0x400) (hscalar : ¬ (0x360 ≤ code ∧ code < 0x380)) :
    Held (some ⟨1, 0x80, 0xBF, code⟩) [a, b]
  | four {low high code : Nat} {a : UInt8} (ha : a.toNat = 0xF0 + code) (hcode : code ≤ 4)
    (hlow : 0x80 ≤ low ∧ (code = 0 → 0x90 ≤ low)) (hhigh : high ≤ 0xBF ∧ (code = 4 → high ≤ 0x8F)) :
    Held (some ⟨3, low, high, code⟩) [a]
  | thirdOfFour {code : Nat} {a b : UInt8} (ha : a.toNat = 0xF0 + code / 64) (hb : b.toNat = 0x80 + code % 64)
    (hcode : 0x10 ≤ code ∧ code < 0x110) : Held (some ⟨2, 0x80, 0xBF, code⟩) [a, b]
  | lastOfFour {code : Nat} {a b c : UInt8} (ha : a.toNat = 0xF0 + code / 4096)
    (hb : b.toNat = 0x80 + code / 64 % 64) (hc : c.toNat = 0x80 + code % 64) (hcode : 0x400 ≤ code ∧ code < 0x4400) :
    Held (some ⟨1, 0x80, 0xBF, code⟩) [a, b, c]

/-- What octets come to that were open before the last of them: a character, a character that is still open, or a break. -/
inductive Fed (octets : List UInt8) : List (Option Char) × Option Open → Prop
  | complete {c : Char} (h : String.utf8EncodeChar c = octets) : Fed octets ([some c], none)
  | taken {o : Open} (h : Held (some o) octets) : Fed octets ([], some o)
  | broken {out : List (Option Char)} {next : Option Open} {held : List UInt8} (h : none ∈ out) (hnext : Held next held) :
    Fed octets (out, next)

theorem Fed.exists_held {octets : List UInt8} {fed : List (Option Char) × Option Open} (h : Fed octets fed) :
    ∃ held, Held fed.2 held := by
  cases h with
  | complete _ => exact ⟨[], .between⟩
  | taken hopen => exact ⟨octets, hopen⟩
  | broken _ hnext => exact ⟨_, hnext⟩

theorem Held.low_ge {o : Open} {held : List UInt8} (h : Held (some o) held) : 0x80 ≤ o.low := by
  cases h <;> simp_all

theorem fed_start (b : UInt8) : Fed [b] (start b) := by
  have hb : b.toNat < 256 := b.toNat_lt
  simp only [start]
  split
  · rename_i hascii
    exact .complete (encodeChar_one hascii)
  repeat' split
  · exact .taken (.two (by omega) (by omega))
  · exact .taken (.three (by omega) (by omega) (by omega) (by omega))
  · exact .taken (.three (by omega) (by omega) (by omega) (by omega))
  · exact .taken (.three (by omega) (by omega) (by omega) (by omega))
  · exact .taken (.four (by omega) (by omega) (by omega) (by omega))
  · exact .taken (.four (by omega) (by omega) (by omega) (by omega))
  · exact .taken (.four (by omega) (by omega) (by omega) (by omega))
  · exact .broken (by simp) .between

theorem fed_feed {state : Option Open} {held : List UInt8} (h : Held state held) (b : UInt8) :
    Fed (held ++ [b]) (feed state b) := by
  obtain ⟨_, hnext⟩ := (fed_start b).exists_held
  cases h with
  | between => exact fed_start b
  | two ha hcode =>
    simp only [feed, Nat.le_refl, if_true]
    split
    · exact .complete (encodeChar_two (by omega) (by omega) (by omega))
    · exact .broken (by simp) hnext
  | three ha hcode hlow hhigh =>
    simp only [feed]
    split
    · exact .taken (.lastOfThree (by omega) (by omega) (by omega) (by omega))
    · exact .broken (by simp) hnext
  | lastOfThree ha hb hcode hscalar =>
    simp only [feed, Nat.le_refl, if_true]
    split
    · exact .complete (encodeChar_three (by omega) (by omega) (by omega) (by omega) (by omega))
    · exact .broken (by simp) hnext
  | four ha hcode hlow hhigh =>
    simp only [feed]
    split
    · exact .taken (.thirdOfFour (by omega) (by omega) (by omega))
    · exact .broken (by simp) hnext
  | thirdOfFour ha hb hcode =>
    simp only [feed]
    split
    · exact .taken (.lastOfFour (by omega) (by omega) (by omega) (by omega))
    · exact .broken (by simp) hnext
  | lastOfFour ha hb hc hcode =>
    simp only [feed, Nat.le_refl, if_true]
    split
    · exact .complete (encodeChar_four (by omega) (by omega) (by omega) (by omega) (by omega))
    · exact .broken (by simp) hnext

/-! ### Decoding -/

private theorem mapM_id_eq_some_iff {l : List (Option Char)} {cs : List Char} : l.mapM id = some cs ↔ l = cs.map some := by
  induction l generalizing cs with
  | nil => cases cs <;> simp
  | cons first rest ih =>
    cases first with
    | none => cases cs <;> simp
    | some c => cases cs <;> simp [Option.bind_eq_some_iff, ih, and_comm]

theorem decode?_eq_some_iff {octets : List UInt8} {s : String} :
    decode? octets = some s ↔ pieces none octets = s.toList.map some := by
  rw [decode?, Option.map_eq_some_iff]
  constructor
  · rintro ⟨cs, hcs, rfl⟩
    rw [String.toList_ofList]
    exact mapM_id_eq_some_iff.1 hcs
  · intro h
    exact ⟨s.toList, mapM_id_eq_some_iff.2 h, String.ofList_toList⟩

private theorem encode_of_pieces {octets held : List UInt8} {state : Option Open} {cs : List Char} (hheld : Held state held)
    (h : pieces state octets = cs.map some) : cs.flatMap String.utf8EncodeChar = held ++ octets := by
  induction octets generalizing state held cs with
  | nil =>
    cases hheld with
    | between =>
      obtain rfl : cs = [] := by simpa [pieces] using h.symm
      rfl
    | _ => cases cs <;> simp [pieces] at h
  | cons b rest ih =>
    have hfed := fed_feed hheld b
    simp only [pieces] at h
    generalize feed state b = fed at hfed h
    cases hfed with
    | complete hc =>
      cases cs with
      | nil => simp at h
      | cons first cs =>
        simp only [List.map_cons, List.singleton_append, List.cons.injEq, Option.some.injEq] at h
        obtain ⟨rfl, hrest⟩ := h
        have htail := ih .between hrest
        rw [List.flatMap_cons, hc, htail]
        simp
    | taken hopen =>
      have htail := ih hopen h
      rw [htail]
      simp
    | broken hnone _ =>
      have hmem : none ∈ cs.map some := h ▸ List.mem_append_left _ hnone
      simp at hmem

/-- Octets that decode to a text are the octets of that text. -/
theorem encode_of_decode? {octets : List UInt8} {s : String} (h : decode? octets = some s) : encode s = octets :=
  encode_of_pieces .between (decode?_eq_some_iff.1 h)

theorem decode?_inj {octets octets' : List UInt8} {s : String} (h : decode? octets = some s)
    (h' : decode? octets' = some s) : octets = octets' :=
  (encode_of_decode? h).symm.trans (encode_of_decode? h')

/-! ### Octets that stand for themselves -/

theorem pieces_append_of_lt {state : Option Open} {held : List UInt8} (hheld : Held state held) {b : UInt8}
    (hb : b.toNat < 0x80) (before after : List UInt8) :
    pieces state (before ++ b :: after) = pieces state before ++ some (Char.ofNat b.toNat) :: pieces none after := by
  induction before generalizing state held with
  | nil =>
    have hstart : start b = ([some (Char.ofNat b.toNat)], none) := by
      simp only [start]
      rw [if_pos hb]
    cases state with
    | none => simp [pieces, feed, hstart]
    | some o =>
      have hlow := hheld.low_ge
      have hout : ¬ (o.low ≤ b.toNat ∧ b.toNat ≤ o.high) := by omega
      simp [pieces, feed, hstart, hout]
  | cons first rest ih =>
    obtain ⟨_, hnext⟩ := (fed_feed hheld first).exists_held
    simp only [List.cons_append, pieces, ih hnext, List.append_assoc]

/-- What stands before an octet that stands for itself can be decoded by itself. -/
theorem exists_decode?_of_append {before after : List UInt8} {b : UInt8} (hb : b.toNat < 0x80) {s : String}
    (h : decode? (before ++ b :: after) = some s) : ∃ s', decode? before = some s' := by
  rw [decode?_eq_some_iff, pieces_append_of_lt .between hb] at h
  obtain ⟨cs, rest, -, hcs, -⟩ := List.map_eq_append_iff.1 h.symm
  refine ⟨String.ofList cs, decode?_eq_some_iff.2 ?_⟩
  rw [String.toList_ofList, hcs]

theorem head?_encode_eq_iff {s : String} {b : UInt8} (hb : b.toNat < 0x80) :
    (encode s).head? = some b ↔ s.toList.head? = some (Char.ofNat b.toNat) := by
  have hencode : String.utf8EncodeChar (Char.ofNat b.toNat) = [b] := encodeChar_one hb
  rw [encode]
  cases s.toList with
  | nil => simp
  | cons c rest =>
    have hne : String.utf8EncodeChar c ≠ [] := String.utf8EncodeChar_ne_nil
    rw [List.flatMap_cons, List.head?_append_of_ne_nil _ hne, List.head?_cons, Option.some.injEq]
    constructor
    · intro hhead
      have hmem : b ∈ String.utf8EncodeChar c := List.mem_of_head? hhead
      have hcode : b.toNat = c.toNat := (octet_of_mem_encodeChar hmem).resolve_right (by omega)
      rw [hcode, Char.ofNat_toNat]
    · rintro rfl
      rw [hencode]
      rfl

/-! ### Encoded texts -/

private theorem feed_more {need low high code : Nat} {b : UInt8} (hneed : 1 < need) (hb : low ≤ b.toNat ∧ b.toNat ≤ high) :
    feed (some ⟨need, low, high, code⟩) b = ([], some ⟨need - 1, 0x80, 0xBF, code * 64 + b.toNat % 64⟩) := by
  simp only [feed]
  rw [if_pos hb, if_neg (by omega)]

private theorem feed_last {low high code n : Nat} {b : UInt8} (hb : low ≤ b.toNat ∧ b.toNat ≤ high)
    (hn : code * 64 + b.toNat % 64 = n) : feed (some ⟨1, low, high, code⟩) b = ([some (Char.ofNat n)], none) := by
  simp only [feed]
  rw [if_pos hb, if_pos (Nat.le_refl 1), hn]

private theorem pieces_two {a b : UInt8} {n : Nat} (ha : a.toNat = 0xC0 + n / 64) (hb : b.toNat = 0x80 + n % 64)
    (hn : 0x80 ≤ n ∧ n < 0x800) (rest : List UInt8) :
    pieces none (a :: b :: rest) = some (Char.ofNat n) :: pieces none rest := by
  have hstart : start a = ([], some ⟨1, 0x80, 0xBF, n / 64⟩) := by
    simp only [start, ha]
    rw [if_neg (by omega), if_pos (by omega), Nat.add_sub_cancel_left]
  simp only [pieces, show feed none a = start a from rfl, hstart]
  rw [feed_last (n := n) (by omega) (by omega)]
  rfl

private theorem pieces_three {a b c : UInt8} {n : Nat} (ha : a.toNat = 0xE0 + n / 4096) (hb : b.toNat = 0x80 + n / 64 % 64)
    (hc : c.toNat = 0x80 + n % 64) (hn : 0x800 ≤ n ∧ n < 0x10000) (hscalar : n < 0xD800 ∨ 0xDFFF < n) (rest : List UInt8) :
    pieces none (a :: b :: c :: rest) = some (Char.ofNat n) :: pieces none rest := by
  -- the bounds of the second octet leave out what has a shorter form and what is no character
  have hstart : ∃ low high, start a = ([], some ⟨2, low, high, n / 4096⟩) ∧ low ≤ b.toNat ∧ b.toNat ≤ high := by
    simp only [start, ha]
    rw [if_neg (by omega), if_neg (by omega)]
    by_cases hlow : n / 4096 = 0
    · exact ⟨0xA0, 0xBF, by simp [hlow], by omega, by omega⟩
    · by_cases hhigh : n / 4096 = 0xD
      · exact ⟨0x80, 0x9F, by simp [hhigh], by omega, by omega⟩
      · rw [if_neg (by omega), if_neg (by omega), if_pos (by omega), Nat.add_sub_cancel_left]
        exact ⟨0x80, 0xBF, rfl, by omega, by omega⟩
  obtain ⟨low, high, hstart, hbounds⟩ := hstart
  simp only [pieces, show feed none a = start a from rfl, hstart]
  rw [feed_more (by omega) hbounds, feed_last (n := n) (by omega) (by omega)]
  rfl

private theorem pieces_four {a b c d : UInt8} {n : Nat} (ha : a.toNat = 0xF0 + n / 262144)
    (hb : b.toNat = 0x80 + n / 4096 % 64) (hc : c.toNat = 0x80 + n / 64 % 64) (hd : d.toNat = 0x80 + n % 64)
    (hn : 0x10000 ≤ n ∧ n < 0x110000) (rest : List UInt8) :
    pieces none (a :: b :: c :: d :: rest) = some (Char.ofNat n) :: pieces none rest := by
  have hstart : ∃ low high, start a = ([], some ⟨3, low, high, n / 262144⟩) ∧ low ≤ b.toNat ∧ b.toNat ≤ high := by
    simp only [start, ha]
    rw [if_neg (by omega), if_neg (by omega), if_neg (by omega), if_neg (by omega), if_neg (by omega)]
    by_cases hlow : n / 262144 = 0
    · exact ⟨0x90, 0xBF, by simp [hlow], by omega, by omega⟩
    · by_cases hhigh : n / 262144 = 4
      · exact ⟨0x80, 0x8F, by simp [hhigh], by omega, by omega⟩
      · rw [if_neg (by omega), if_pos (by omega), Nat.add_sub_cancel_left]
        exact ⟨0x80, 0xBF, rfl, by omega, by omega⟩
  obtain ⟨low, high, hstart, hbounds⟩ := hstart
  simp only [pieces, show feed none a = start a from rfl, hstart]
  rw [feed_more (by omega) hbounds, feed_more (by omega) (by omega), feed_last (n := n) (by omega) (by omega)]
  rfl

theorem pieces_encodeChar (c : Char) (rest : List UInt8) :
    pieces none (String.utf8EncodeChar c ++ rest) = some c :: pieces none rest := by
  have hc : Char.ofNat c.val.toNat = c := Char.ofNat_toNat c
  have hvalid : c.val.toNat < 0xD800 ∨ 0xDFFF < c.val.toNat ∧ c.val.toNat < 0x110000 := c.valid
  simp only [String.utf8EncodeChar]
  generalize c.val.toNat = n at hc hvalid ⊢
  rw [← hc]
  split
  · have hn : (UInt8.ofNat n).toNat = n := by
      rw [UInt8.toNat_ofNat']
      omega
    simp only [List.cons_append, List.nil_append, pieces, feed, start, hn]
    rw [if_pos (by omega)]
    rfl
  · split
    · exact pieces_two (by rw [UInt8.toNat_ofNat']; omega) (by rw [UInt8.toNat_ofNat']; omega) (by omega) rest
    · split
      · exact pieces_three (by rw [UInt8.toNat_ofNat']; omega) (by rw [UInt8.toNat_ofNat']; omega)
          (by rw [UInt8.toNat_ofNat']; omega) (by omega) (by omega) rest
      · exact pieces_four (by rw [UInt8.toNat_ofNat']; omega) (by rw [UInt8.toNat_ofNat']; omega)
          (by rw [UInt8.toNat_ofNat']; omega) (by rw [UInt8.toNat_ofNat']; omega) (by omega) rest

theorem decode?_encode (s : String) : decode? (encode s) = some s := by
  rw [decode?_eq_some_iff, encode]
  induction s.toList with
  | nil => rfl
  | cons c cs ih => rw [List.flatMap_cons, pieces_encodeChar, ih, List.map_cons]

/-! ### Replaced stretches -/

theorem decodeLossy_of_decode? {octets : List UInt8} {s : String} (h : decode? octets = some s) : decodeLossy octets = s := by
  rw [decodeLossy, decode?_eq_some_iff.1 h, List.map_map]
  show String.ofList (s.toList.map id) = s
  rw [List.map_id, String.ofList_toList]

theorem encode_decodeLossy_eq_iff (octets : List UInt8) : encode (decodeLossy octets) = octets ↔ (decode? octets).isSome := by
  constructor
  · intro h
    rw [← h, decode?_encode]
    rfl
  · intro h
    obtain ⟨s, hs⟩ := Option.isSome_iff_exists.1 h
    rw [decodeLossy_of_decode? hs, encode_of_decode? hs]

/-- Where no replacement character is read, nothing was replaced. -/
theorem decode?_of_decodeLossy {octets : List UInt8} {s : String} (h : decodeLossy octets = s) (hs : '�' ∉ s.toList) :
    decode? octets = some s := by
  have hread : (pieces none octets).map (fun c => c.getD '�') = s.toList := by
    rw [← h, decodeLossy, String.toList_ofList]
  rw [decode?_eq_some_iff, ← hread, List.map_map]
  symm
  refine (List.map_congr_left fun piece hpiece => ?_).trans (List.map_id _)
  cases piece with
  | some c => rfl
  | none =>
    refine absurd ?_ hs
    rw [← hread]
    exact List.mem_map_of_mem hpiece

private theorem mem_start {b : UInt8} {c : Char} (h : some c ∈ (start b).1) : c.toNat = b.toNat := by
  simp only [start] at h
  split at h
  · obtain rfl : c = Char.ofNat b.toNat := by simpa using h
    exact val_ofNat (by omega)
  · repeat' split at h
    all_goals simp at h

private theorem mem_feed {state : Option Open} {held : List UInt8} (hheld : Held state held) {b : UInt8} {c : Char}
    (h : some c ∈ (feed state b).1) (hc : c.toNat < 0x80) : c.toNat = b.toNat := by
  cases state with
  | none => exact mem_start h
  | some o =>
    have hfed := fed_feed hheld b
    by_cases hbounds : o.low ≤ b.toNat ∧ b.toNat ≤ o.high
    · by_cases hneed : o.need ≤ 1
      · simp only [feed, if_pos hbounds, if_pos hneed] at h hfed
        rw [← Option.some.inj (List.mem_singleton.1 h)] at hfed
        cases hfed with
        | broken hnone _ => simp at hnone
        | complete hencode =>
          rw [encodeChar_of_lt hc] at hencode
          have hmem : b ∈ [UInt8.ofNat c.toNat] := hencode ▸ List.mem_append_right _ (List.mem_singleton_self b)
          rw [List.mem_singleton.1 hmem, UInt8.toNat_ofNat']
          omega
      · simp [feed, if_pos hbounds, if_neg hneed] at h
    · simp only [feed, if_neg hbounds] at h
      exact mem_start ((List.mem_cons.1 h).resolve_left (by simp))

private theorem mem_pieces {octets held : List UInt8} {state : Option Open} (hheld : Held state held) {c : Char}
    (h : some c ∈ pieces state octets) (hc : c.toNat < 0x80) : ∃ b ∈ octets, c.toNat = b.toNat := by
  induction octets generalizing state held with
  | nil => cases state <;> simp [pieces] at h
  | cons b rest ih =>
    rcases List.mem_append.1 h with hout | hrest
    · exact ⟨b, List.mem_cons_self, mem_feed hheld hout hc⟩
    · obtain ⟨_, hnext⟩ := (fed_feed hheld b).exists_held
      obtain ⟨b', hb', hsame⟩ := ih hnext hrest
      exact ⟨b', List.mem_cons_of_mem _ hb', hsame⟩

/-- Reading with replacement characters brings in no octet below 0x80. -/
theorem mem_of_mem_encode_decodeLossy {octets : List UInt8} {b : UInt8} (hb : b.toNat < 0x80)
    (h : b ∈ encode (decodeLossy octets)) : b ∈ octets := by
  obtain ⟨c, hc, hmem⟩ := List.mem_flatMap.1 h
  have hcode : b.toNat = c.toNat := (octet_of_mem_encodeChar hmem).resolve_right (by omega)
  rw [decodeLossy, String.toList_ofList] at hc
  obtain ⟨piece, hpiece, rfl⟩ := List.mem_map.1 hc
  cases piece with
  | none =>
    have hlarge : ('�' : Char).toNat = 0xFFFD := rfl
    simp only [Option.getD_none, hlarge] at hcode
    omega
  | some c =>
    simp only [Option.getD_some] at hcode
    obtain ⟨b', hb', hsame⟩ := mem_pieces .between hpiece (by omega)
    rwa [UInt8.toNat_inj.1 (hcode.trans hsame)]

end HostFleet.Utf8
