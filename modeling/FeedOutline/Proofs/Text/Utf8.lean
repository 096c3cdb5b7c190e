import FeedOutline.Proofs.Except
import FeedOutline.Text.Utf8
import Mathlib.Tactic.SplitIfs

/-!
Text as bytes and back. The bytes of a text are those of its characters, reading them gives the text
again, and no other bytes are read as a text.
-/
namespace FeedOutline.Text

theorem loop_eq_append_drop (bytes : ByteArray) (i : Nat) (before : List UInt8) :
    ByteArray.toList.loop bytes i before = before.reverse ++ bytes.data.toList.drop i := by
  fun_induction ByteArray.toList.loop bytes i before with
  | case1 i before h ih =>
    have hlength : i < bytes.data.toList.length := by simpa using h
    have hdrop : bytes.data.toList.drop i = bytes.get! i :: bytes.data.toList.drop (i + 1) := by
      rw [List.drop_eq_getElem_cons hlength]
      simp [ByteArray.get!, h]
    rw [ih, hdrop, List.reverse_cons, List.append_assoc, List.singleton_append]
  | case2 i before h =>
    rw [List.drop_eq_nil_of_le (by simpa using Nat.not_lt.1 h), List.append_nil]

theorem encodeUtf8_eq (s : String) : encodeUtf8 s = s.toList.flatMap String.utf8EncodeChar := by
  have hbytes : s.toUTF8 = (s.toList.flatMap String.utf8EncodeChar).toByteArray :=
    String.utf8Encode_toList.symm
  rw [encodeUtf8, hbytes, ByteArray.toList, loop_eq_append_drop, List.toList_data_toByteArray]
  rfl

variable {offset : Nat} {b : UInt8} {bs : Bytes} {o : Owed}

theorem decodeFrom_first (hb : 0x80 ≤ b.toNat) (ho : owed? b = some o) :
    decodeFrom offset none (b :: bs) = decodeFrom offset (some o) bs := by
  rw [decodeFrom, if_neg (by omega), ho]

theorem decodeFrom_next (hlow : o.low ≤ b.toNat) (hhigh : b.toNat ≤ o.high) (hcount : o.count ≠ 1) :
    decodeFrom offset (some o) (b :: bs) =
      decodeFrom offset
        (some ⟨b :: o.read, o.bits * 64 + (b.toNat - 0x80), o.count - 1, 0x80, 0xBF⟩) bs := by
  rw [decodeFrom, if_pos (by simp [hlow, hhigh])]
  simp only [hcount, if_false]

theorem decodeFrom_last (hlow : o.low ≤ b.toNat) (hhigh : b.toNat ≤ o.high) (hcount : o.count = 1) :
    decodeFrom offset (some o) (b :: bs) =
      (decodeFrom (offset + o.read.length + 1) none bs).map
        (Char.ofNat (o.bits * 64 + (b.toNat - 0x80)) :: ·) := by
  rw [decodeFrom, if_pos (by simp [hlow, hhigh])]
  simp only [hcount, if_true]

theorem toNat_ofNat_of_lt {n : Nat} (h : n < 256) : (UInt8.ofNat n).toNat = n :=
  UInt8.toNat_ofNat_of_lt' h

/-! What the first byte of a character promises, by the number of its bytes. -/

theorem owed?_two {n : Nat} (hlow : 0xC2 ≤ n) (hhigh : n ≤ 0xDF) :
    owed? (.ofNat n) = some ⟨[.ofNat n], n - 0xC0, 1, 0x80, 0xBF⟩ := by
  have hn : (UInt8.ofNat n).toNat = n := toNat_ofNat_of_lt (by omega)
  simp only [owed?, hn]
  rw [if_pos (by simp [hlow, hhigh])]

theorem owed?_three {n : Nat} (hlow : 0xE0 ≤ n) (hhigh : n ≤ 0xEF) :
    owed? (.ofNat n) = some ⟨[.ofNat n], n - 0xE0, 2, if n = 0xE0 then 0xA0 else 0x80,
      if n = 0xED then 0x9F else 0xBF⟩ := by
  have hn : (UInt8.ofNat n).toNat = n := toNat_ofNat_of_lt (by omega)
  simp only [owed?, hn]
  rw [if_neg (by simp; omega), if_pos (by simp [hlow, hhigh])]

theorem owed?_four {n : Nat} (hlow : 0xF0 ≤ n) (hhigh : n ≤ 0xF4) :
    owed? (.ofNat n) = some ⟨[.ofNat n], n - 0xF0, 3, if n = 0xF0 then 0x90 else 0x80,
      if n = 0xF4 then 0x8F else 0xBF⟩ := by
  have hn : (UInt8.ofNat n).toNat = n := toNat_ofNat_of_lt (by omega)
  simp only [owed?, hn]
  rw [if_neg (by simp; omega), if_neg (by simp; omega), if_pos (by simp [hlow, hhigh])]

/-! The bytes of a character by its number. -/

theorem decodeFrom_one {n : Nat} (h : n ≤ 0x7F) :
    decodeFrom offset none (.ofNat n :: bs) =
      (decodeFrom (offset + 1) none bs).map (Char.ofNat n :: ·) := by
  have hn : (UInt8.ofNat n).toNat = n := toNat_ofNat_of_lt (by omega)
  rw [decodeFrom, hn, if_pos (by omega)]

theorem toNat_tail (n : Nat) : (UInt8.ofNat (n % 64 + 128)).toNat = n % 64 + 128 :=
  toNat_ofNat_of_lt (by omega)

theorem decodeFrom_two {n : Nat} (hlow : 0x7F < n) (hhigh : n ≤ 0x7FF) :
    decodeFrom offset none (.ofNat (n / 64 % 32 + 192) :: .ofNat (n % 64 + 128) :: bs) =
      (decodeFrom (offset + 2) none bs).map (Char.ofNat n :: ·) := by
  have hfirst : (UInt8.ofNat (n / 64 % 32 + 192)).toNat = n / 64 % 32 + 192 :=
    toNat_ofNat_of_lt (by omega)
  have hlast := toNat_tail n
  have hbits : (n / 64 % 32 + 192 - 0xC0) * 64 + (n % 64 + 128 - 0x80) = n := by omega
  rw [decodeFrom_first (by omega) (owed?_two (by omega) (by omega)),
    decodeFrom_last (by simp only; omega) (by simp only; omega) rfl]
  simp only [hlast, hbits]
  rfl

theorem decodeFrom_three {n : Nat} (hlow : 0x7FF < n) (hhigh : n ≤ 0xFFFF)
    (hvalid : n < 0xD800 ∨ 0xDFFF < n) :
    decodeFrom offset none (.ofNat (n / 4096 % 16 + 224) :: .ofNat (n / 64 % 64 + 128) ::
      .ofNat (n % 64 + 128) :: bs) = (decodeFrom (offset + 3) none bs).map (Char.ofNat n :: ·) := by
  have hfirst : (UInt8.ofNat (n / 4096 % 16 + 224)).toNat = n / 4096 % 16 + 224 :=
    toNat_ofNat_of_lt (by omega)
  have hmiddle := toNat_tail (n / 64)
  have hlast := toNat_tail n
  have hbits : ((n / 4096 % 16 + 224 - 0xE0) * 64 + (n / 64 % 64 + 128 - 0x80)) * 64 +
      (n % 64 + 128 - 0x80) = n := by omega
  rw [decodeFrom_first (by omega) (owed?_three (by omega) (by omega)),
    decodeFrom_next (by simp only [hmiddle]; split <;> omega)
      (by simp only [hmiddle]; split <;> omega) (by simp),
    decodeFrom_last (by simp only; omega) (by simp only; omega) rfl]
  simp only [hmiddle, hlast, hbits]
  rfl

theorem decodeFrom_four {n : Nat} (hlow : 0xFFFF < n) (hhigh : n < 0x110000) :
    decodeFrom offset none (.ofNat (n / 262144 % 8 + 240) :: .ofNat (n / 4096 % 64 + 128) ::
      .ofNat (n / 64 % 64 + 128) :: .ofNat (n % 64 + 128) :: bs) =
      (decodeFrom (offset + 4) none bs).map (Char.ofNat n :: ·) := by
  have hfirst : (UInt8.ofNat (n / 262144 % 8 + 240)).toNat = n / 262144 % 8 + 240 :=
    toNat_ofNat_of_lt (by omega)
  have hsecond := toNat_tail (n / 4096)
  have hmiddle := toNat_tail (n / 64)
  have hlast := toNat_tail n
  have hbits : (((n / 262144 % 8 + 240 - 0xF0) * 64 + (n / 4096 % 64 + 128 - 0x80)) * 64 +
      (n / 64 % 64 + 128 - 0x80)) * 64 + (n % 64 + 128 - 0x80) = n := by omega
  rw [decodeFrom_first (by omega) (owed?_four (by omega) (by omega)),
    decodeFrom_next (by simp only [hsecond]; split <;> omega)
      (by simp only [hsecond]; split <;> omega) (by simp),
    decodeFrom_next (by simp only; omega) (by simp only; omega) (by simp),
    decodeFrom_last (by simp only; omega) (by simp only; omega) rfl]
  simp only [hsecond, hmiddle, hlast, hbits]
  rfl

theorem decodeFrom_encodeChar (c : Char) (offset : Nat) (bs : Bytes) :
    ∃ offset', decodeFrom offset none (String.utf8EncodeChar c ++ bs) =
      (decodeFrom offset' none bs).map (c :: ·) := by
  -- The numbers of the surrogates are left out: they belong to no character.
  have hvalid : c.val.toNat < 0xD800 ∨ 0xDFFF < c.val.toNat ∧ c.val.toNat < 0x110000 := c.valid
  have hchar : Char.ofNat c.val.toNat = c := Char.ofNat_toNat c
  unfold String.utf8EncodeChar
  dsimp only
  split
  · next h1 => exact ⟨_, hchar ▸ decodeFrom_one h1⟩
  · next h1 =>
    split
    · next h2 => exact ⟨_, hchar ▸ decodeFrom_two (Nat.not_le.1 h1) h2⟩
    · next h2 =>
      split
      · next h3 => exact ⟨_, hchar ▸ decodeFrom_three (Nat.not_le.1 h2) h3 (by omega)⟩
      · next h3 => exact ⟨_, hchar ▸ decodeFrom_four (Nat.not_le.1 h3) (by omega)⟩

theorem decodeUtf8_encodeUtf8 (s : String) : decodeUtf8 (encodeUtf8 s) = .ok s := by
  have hchars (cs : List Char) (offset : Nat) :
      decodeFrom offset none (cs.flatMap String.utf8EncodeChar) = .ok cs := by
    induction cs generalizing offset with
    | nil => rfl
    | cons c cs ih =>
      obtain ⟨offset', hc⟩ := decodeFrom_encodeChar c offset (cs.flatMap String.utf8EncodeChar)
      rw [List.flatMap_cons, hc, ih]
      rfl
  rw [decodeUtf8, encodeUtf8_eq, hchars]
  exact congrArg Except.ok String.ofList_toList

/-! What is read as a character are its bytes. -/

theorem toNat_val_ofNat {n : Nat} (h : n.isValidChar) : (Char.ofNat n).val.toNat = n := by
  rw [Char.ofNat, dif_pos h]
  rfl

theorem ofNat_eq_of_toNat {n : Nat} (h : n = b.toNat) : UInt8.ofNat n = b := by
  rw [h, UInt8.ofNat_toNat]

theorem encodeChar_ofNat {n : Nat} (h : n.isValidChar) : String.utf8EncodeChar (Char.ofNat n) =
    if n ≤ 0x7F then [.ofNat n]
    else if n ≤ 0x7FF then [.ofNat (n / 64 % 32 + 192), .ofNat (n % 64 + 128)]
    else if n ≤ 0xFFFF then
      [.ofNat (n / 4096 % 16 + 224), .ofNat (n / 64 % 64 + 128), .ofNat (n % 64 + 128)]
    else
      [.ofNat (n / 262144 % 8 + 240), .ofNat (n / 4096 % 64 + 128), .ofNat (n / 64 % 64 + 128),
        .ofNat (n % 64 + 128)] := by
  unfold String.utf8EncodeChar
  simp only [toNat_val_ofNat h]

variable {a c d : UInt8} {cs : List Char}

theorem encodeChar_one (ha : a.toNat < 0x80) : String.utf8EncodeChar (Char.ofNat a.toNat) = [a] := by
  rw [encodeChar_ofNat (.inl (by omega)), if_pos (by omega), UInt8.ofNat_toNat]

theorem encodeChar_two (ha : 0xC2 ≤ a.toNat ∧ a.toNat ≤ 0xDF) (hb : 0x80 ≤ b.toNat ∧ b.toNat ≤ 0xBF) :
    String.utf8EncodeChar (Char.ofNat ((a.toNat - 0xC0) * 64 + (b.toNat - 0x80))) = [a, b] := by
  obtain ⟨n, hn⟩ : ∃ n, n = (a.toNat - 0xC0) * 64 + (b.toNat - 0x80) := ⟨_, rfl⟩
  rw [← hn, encodeChar_ofNat (.inl (by omega)), if_neg (by omega), if_pos (by omega),
    ofNat_eq_of_toNat (b := a) (by omega), ofNat_eq_of_toNat (b := b) (by omega)]

theorem encodeChar_three (ha : 0xE0 ≤ a.toNat ∧ a.toNat ≤ 0xEF)
    (hb : (if a.toNat = 0xE0 then 0xA0 else 0x80) ≤ b.toNat ∧
      b.toNat ≤ if a.toNat = 0xED then 0x9F else 0xBF) (hc : 0x80 ≤ c.toNat ∧ c.toNat ≤ 0xBF) :
    String.utf8EncodeChar (Char.ofNat
      (((a.toNat - 0xE0) * 64 + (b.toNat - 0x80)) * 64 + (c.toNat - 0x80))) = [a, b, c] := by
  obtain ⟨n, hn⟩ : ∃ n, n = ((a.toNat - 0xE0) * 64 + (b.toNat - 0x80)) * 64 + (c.toNat - 0x80) :=
    ⟨_, rfl⟩
  have hvalid : n < 0xD800 ∨ 0xDFFF < n ∧ n < 0x110000 := by
    split_ifs at hb <;> omega
  have hsize : 0x800 ≤ n ∧ n ≤ 0xFFFF := by
    split_ifs at hb <;> omega
  have htail : 0x80 ≤ b.toNat ∧ b.toNat ≤ 0xBF := by
    split_ifs at hb <;> omega
  rw [← hn, encodeChar_ofNat hvalid, if_neg (by omega), if_neg (by omega), if_pos (by omega)]
  clear hb hvalid
  rw [ofNat_eq_of_toNat (b := a) (by omega), ofNat_eq_of_toNat (b := b) (by omega),
    ofNat_eq_of_toNat (b := c) (by omega)]

theorem encodeChar_four (ha : 0xF0 ≤ a.toNat ∧ a.toNat ≤ 0xF4)
    (hb : (if a.toNat = 0xF0 then 0x90 else 0x80) ≤ b.toNat ∧
      b.toNat ≤ if a.toNat = 0xF4 then 0x8F else 0xBF) (hc : 0x80 ≤ c.toNat ∧ c.toNat ≤ 0xBF)
    (hd : 0x80 ≤ d.toNat ∧ d.toNat ≤ 0xBF) :
    String.utf8EncodeChar (Char.ofNat ((((a.toNat - 0xF0) * 64 + (b.toNat - 0x80)) * 64 +
      (c.toNat - 0x80)) * 64 + (d.toNat - 0x80))) = [a, b, c, d] := by
  obtain ⟨n, hn⟩ : ∃ n, n = (((a.toNat - 0xF0) * 64 + (b.toNat - 0x80)) * 64 +
      (c.toNat - 0x80)) * 64 + (d.toNat - 0x80) := ⟨_, rfl⟩
  have hsize : 0xFFFF < n ∧ n < 0x110000 := by
    split_ifs at hb <;> omega
  have htail : 0x80 ≤ b.toNat ∧ b.toNat ≤ 0xBF := by
    split_ifs at hb <;> omega
  clear hb
  rw [← hn, encodeChar_ofNat (.inr ⟨by omega, hsize.2⟩), if_neg (by omega), if_neg (by omega),
    if_neg (by omega), ofNat_eq_of_toNat (b := a) (by omega), ofNat_eq_of_toNat (b := b) (by omega),
    ofNat_eq_of_toNat (b := c) (by omega), ofNat_eq_of_toNat (b := d) (by omega)]

/-! What can follow the first bytes of a character. -/

theorem exists_next_of_decodeFrom (hcount : o.count ≠ 1) (h : decodeFrom offset (some o) bs = .ok cs) :
    ∃ b rest, bs = b :: rest ∧ (o.low ≤ b.toNat ∧ b.toNat ≤ o.high) ∧ decodeFrom offset
      (some ⟨b :: o.read, o.bits * 64 + (b.toNat - 0x80), o.count - 1, 0x80, 0xBF⟩) rest = .ok cs := by
  cases bs with
  | nil => cases h
  | cons b rest =>
    by_cases hb : o.low ≤ b.toNat ∧ b.toNat ≤ o.high
    · rw [decodeFrom_next hb.1 hb.2 hcount] at h
      exact ⟨b, rest, rfl, hb, h⟩
    · rw [decodeFrom, if_neg (by simpa using hb)] at h
      cases h

theorem exists_last_of_decodeFrom (hcount : o.count = 1) (h : decodeFrom offset (some o) bs = .ok cs) :
    ∃ b rest cs' offset', bs = b :: rest ∧ (o.low ≤ b.toNat ∧ b.toNat ≤ o.high) ∧
      cs = Char.ofNat (o.bits * 64 + (b.toNat - 0x80)) :: cs' ∧
      decodeFrom offset' none rest = .ok cs' := by
  cases bs with
  | nil => cases h
  | cons b rest =>
    by_cases hb : o.low ≤ b.toNat ∧ b.toNat ≤ o.high
    · rw [decodeFrom_last hb.1 hb.2 hcount, map_eq_ok] at h
      obtain ⟨cs', hrest, rfl⟩ := h
      exact ⟨b, rest, cs', _, rfl, hb, rfl, hrest⟩
    · rw [decodeFrom, if_neg (by simpa using hb)] at h
      cases h

theorem owed?_eq_some (h : owed? a = some o) :
    (0xC2 ≤ a.toNat ∧ a.toNat ≤ 0xDF) ∧ o = ⟨[a], a.toNat - 0xC0, 1, 0x80, 0xBF⟩ ∨
    (0xE0 ≤ a.toNat ∧ a.toNat ≤ 0xEF) ∧ o = ⟨[a], a.toNat - 0xE0, 2,
      if a.toNat = 0xE0 then 0xA0 else 0x80, if a.toNat = 0xED then 0x9F else 0xBF⟩ ∨
    (0xF0 ≤ a.toNat ∧ a.toNat ≤ 0xF4) ∧ o = ⟨[a], a.toNat - 0xF0, 3,
      if a.toNat = 0xF0 then 0x90 else 0x80, if a.toNat = 0xF4 then 0x8F else 0xBF⟩ := by
  unfold owed? at h
  dsimp only at h
  split at h
  · next ha => exact .inl ⟨by simpa using ha, (Option.some.inj h).symm⟩
  · split at h
    · next ha => exact .inr (.inl ⟨by simpa using ha, (Option.some.inj h).symm⟩)
    · split at h
      · next ha => exact .inr (.inr ⟨by simpa using ha, (Option.some.inj h).symm⟩)
      · cases h

theorem exists_char_of_decodeFrom (h : decodeFrom offset none (a :: bs) = .ok cs) :
    ∃ ch cs' rest offset', cs = ch :: cs' ∧ a :: bs = String.utf8EncodeChar ch ++ rest ∧
      decodeFrom offset' none rest = .ok cs' := by
  rw [decodeFrom] at h
  split at h
  · next ha =>
    obtain ⟨cs', hrest, rfl⟩ := map_eq_ok.1 h
    exact ⟨_, cs', bs, _, rfl, by rw [encodeChar_one ha]; rfl, hrest⟩
  · split at h
    · next o ho =>
      rcases owed?_eq_some ho with ⟨ha, rfl⟩ | ⟨ha, rfl⟩ | ⟨ha, rfl⟩
      · obtain ⟨b, rest, cs', _, rfl, hb, rfl, hrest⟩ := exists_last_of_decodeFrom rfl h
        exact ⟨_, cs', rest, _, rfl, by rw [encodeChar_two ha hb]; rfl, hrest⟩
      · obtain ⟨b, _, rfl, hb, h⟩ := exists_next_of_decodeFrom (by simp) h
        obtain ⟨c, rest, cs', _, rfl, hc, rfl, hrest⟩ := exists_last_of_decodeFrom rfl h
        exact ⟨_, cs', rest, _, rfl, by rw [encodeChar_three ha hb hc]; rfl, hrest⟩
      · obtain ⟨b, _, rfl, hb, h⟩ := exists_next_of_decodeFrom (by simp) h
        obtain ⟨c, _, rfl, hc, h⟩ := exists_next_of_decodeFrom (by simp) h
        obtain ⟨d, rest, cs', _, rfl, hd, rfl, hrest⟩ := exists_last_of_decodeFrom rfl h
        exact ⟨_, cs', rest, _, rfl, by rw [encodeChar_four ha hb hc hd]; rfl, hrest⟩
    · cases h

theorem eq_flatMap_of_decodeFrom (h : decodeFrom offset none bs = .ok cs) :
    bs = cs.flatMap String.utf8EncodeChar := by
  induction cs generalizing offset bs with
  | nil =>
    cases bs with
    | nil => rfl
    | cons b bs =>
      obtain ⟨_, _, _, _, hcs, -⟩ := exists_char_of_decodeFrom h
      cases hcs
  | cons ch cs ih =>
    cases bs with
    | nil => cases h
    | cons b bs =>
      obtain ⟨_, _, rest, _, hcs, hbytes, hrest⟩ := exists_char_of_decodeFrom h
      cases hcs
      rw [hbytes, ih hrest, List.flatMap_cons]

/-- A text is read from its own bytes and from no others. -/
theorem decodeUtf8_eq_ok_iff {s : String} : decodeUtf8 bs = .ok s ↔ bs = encodeUtf8 s := by
  constructor
  · intro h
    obtain ⟨cs, hcs, rfl⟩ := map_eq_ok.1 h
    rw [encodeUtf8_eq, String.toList_ofList]
    exact eq_flatMap_of_decodeFrom hcs
  · rintro rfl
    exact decodeUtf8_encodeUtf8 s

end FeedOutline.Text
