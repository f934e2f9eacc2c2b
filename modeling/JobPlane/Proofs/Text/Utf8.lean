import JobPlane.Text.Utf8

/-!
# Text as UTF-8 and back

The decoder reads back the characters of a text from the bytes it is written in (`pieces_ofChars`), whatever the text.
-/

namespace JobPlane.Utf8

/-! ## Bytes of one character -/

/-- A character of one byte. -/
theorem lead_one {n : Nat} (h : n < 0x80) : lead (UInt8.ofNat n) = .char (Char.ofNat n) := by
  have hnat : (UInt8.ofNat n).toNat = n := by
    rw [UInt8.toNat_ofNat']
    omega
  have hlt : UInt8.ofNat n < 0x80 := by
    rw [UInt8.lt_iff_toNat_lt, hnat]
    exact h
  rw [lead, if_pos hlt, hnat]

/-- The first byte of a character of two. -/
theorem lead_two : ∀ n, 2 ≤ n → n < 32 → lead (UInt8.ofNat (n + 0xC0)) = .part ⟨1, 0x80, 0xBF, n⟩ := by
  intro n hlow hhigh
  have hall : ∀ n, n < 32 → 2 ≤ n → lead (UInt8.ofNat (n + 0xC0)) = .part ⟨1, 0x80, 0xBF, n⟩ := by decide
  exact hall n hhigh hlow

/-- The first byte of a character of three, after which longer forms than needed and surrogates are shut out. -/
theorem lead_three : ∀ n, n < 16 →
    lead (UInt8.ofNat (n + 0xE0)) = .part ⟨2, if n = 0 then 0xA0 else 0x80, if n = 13 then 0x9F else 0xBF, n⟩ := by
  decide

/-- The first byte of a character of four, after which longer forms than needed and numbers past U+10FFFF are shut out. -/
theorem lead_four : ∀ n, n < 5 →
    lead (UInt8.ofNat (n + 0xF0)) = .part ⟨3, if n = 0 then 0x90 else 0x80, if n = 4 then 0x8F else 0xBF, n⟩ := by
  decide

/-- A byte that may follow, with six more bits of the character. -/
theorem feed_part {p : Part} {n : Nat} (before : List Piece) (hn : n < 64) (hlow : p.low.toNat ≤ n + 0x80)
    (hhigh : n + 0x80 ≤ p.high.toNat) :
    feed (some p, before) (UInt8.ofNat (n + 0x80)) =
      if p.missing ≤ 1 then (none, .char (Char.ofNat (p.bits * 64 + n)) :: before)
      else (some ⟨p.missing - 1, 0x80, 0xBF, p.bits * 64 + n⟩, before) := by
  have hnat : (UInt8.ofNat (n + 0x80)).toNat = n + 0x80 := by
    rw [UInt8.toNat_ofNat']
    omega
  have hrange : p.low ≤ UInt8.ofNat (n + 0x80) ∧ UInt8.ofNat (n + 0x80) ≤ p.high := by
    rw [UInt8.le_iff_toNat_le, UInt8.le_iff_toNat_le, hnat]
    exact ⟨hlow, hhigh⟩
  have hbits : (UInt8.ofNat (n + 0x80)).toNat - 0x80 = n := by omega
  simp only [feed, hrange, and_self, if_true, hbits]

/-- The number of a character is no surrogate, and at most U+10FFFF. -/
theorem toNat_valid (c : Char) : c.toNat < 0xD800 ∨ 0xDFFF < c.toNat ∧ c.toNat < 0x110000 := c.valid

/-- The bytes of a character are read as that character. -/
theorem feed_encodeChar (c : Char) (before : List Piece) :
    (String.utf8EncodeChar c).foldl feed (none, before) = (none, .char c :: before) := by
  have hvalid := toNat_valid c
  have hof : Char.ofNat c.toNat = c := Char.ofNat_toNat c
  have hval : c.val.toNat = c.toNat := rfl
  simp only [String.utf8EncodeChar, hval]
  split
  · rename_i h1
    simp only [List.foldl_cons, List.foldl_nil, feed, start, lead_one (Nat.lt_succ_of_le h1), hof]
  · rename_i h1
    split
    · rename_i h2
      have hbits : c.toNat / 64 % 32 * 64 + c.toNat % 64 = c.toNat := by omega
      simp only [List.foldl_cons, List.foldl_nil]
      rw [feed, start, lead_two _ (by omega) (by omega)]
      simp only
      rw [feed_part before (by omega) (by simp) (by simp; omega)]
      simp only [Nat.le_refl, if_true, hbits, hof]
    · rename_i h2
      split
      · rename_i h3
        have hbits : (c.toNat / 4096 % 16 * 64 + c.toNat / 64 % 64) * 64 + c.toNat % 64 = c.toNat := by omega
        simp only [List.foldl_cons, List.foldl_nil]
        rw [feed, start, lead_three _ (by omega)]
        simp only
        rw [feed_part before (by omega) (by simp only; split <;> simp; omega) (by simp only; split <;> simp <;> omega)]
        simp only [Nat.reduceLeDiff, if_false, Nat.add_one_sub_one]
        rw [feed_part before (by omega) (by simp) (by simp; omega)]
        simp only [Nat.le_refl, if_true, hbits, hof]
      · rename_i h3
        have hbits : ((c.toNat / 262144 % 8 * 64 + c.toNat / 4096 % 64) * 64 + c.toNat / 64 % 64) * 64 + c.toNat % 64 =
            c.toNat := by omega
        simp only [List.foldl_cons, List.foldl_nil]
        rw [feed, start, lead_four _ (by omega)]
        simp only
        rw [feed_part before (by omega) (by simp only; split <;> simp; omega) (by simp only; split <;> simp <;> omega)]
        simp only [Nat.reduceLeDiff, if_false, Nat.reduceSub]
        rw [feed_part before (by omega) (by simp) (by simp; omega)]
        simp only [Nat.reduceLeDiff, if_false, Nat.reduceSub]
        rw [feed_part before (by omega) (by simp) (by simp; omega)]
        simp only [Nat.le_refl, if_true, hbits, hof]

/-! ## Texts -/

/-- The bytes of a text are read as its characters. -/
theorem feed_ofChars (cs : List Char) (before : List Piece) :
    (Bytes.ofChars cs).foldl feed (none, before) = (none, (cs.map Piece.char).reverse ++ before) := by
  induction cs generalizing before with
  | nil => rfl
  | cons c cs ih =>
    rw [Bytes.ofChars_cons, List.foldl_append, feed_encodeChar, ih]
    simp

/-- The pieces of a text's bytes are its characters. -/
theorem pieces_ofChars (cs : List Char) : pieces (Bytes.ofChars cs) = cs.map Piece.char := by
  simp [pieces, feed_ofChars, close]

/-- A text is read back from its bytes. -/
theorem decodeChars?_ofChars (cs : List Char) : decodeChars? (Bytes.ofChars cs) = some cs := by
  have hreadable : (cs.map Piece.char).contains .unreadable = false := by
    simp
  have hchars : (cs.map Piece.char).map Piece.toChar = cs := by
    rw [List.map_map]
    exact List.map_id cs
  simp only [decodeChars?, pieces_ofChars, hreadable, Bool.false_eq_true, if_false, hchars]

/-- Only the first 128 characters are written with bytes below 0x80, each as its own number. -/
theorem toNat_of_mem_encodeChar {c : Char} {b : UInt8} (h : b ∈ String.utf8EncodeChar c) (hb : b.toNat < 0x80) :
    b.toNat = c.toNat := by
  have hval : c.val.toNat = c.toNat := rfl
  have hvalid := toNat_valid c
  simp only [String.utf8EncodeChar, hval] at h
  split at h
  · rename_i h1
    rw [List.mem_singleton] at h
    rw [h, UInt8.toNat_ofNat']
    omega
  · exfalso
    split at h
    · simp only [List.mem_cons, List.not_mem_nil, or_false] at h
      rcases h with rfl | rfl <;> rw [UInt8.toNat_ofNat'] at hb <;> omega
    · split at h
      · simp only [List.mem_cons, List.not_mem_nil, or_false] at h
        rcases h with rfl | rfl | rfl <;> rw [UInt8.toNat_ofNat'] at hb <;> omega
      · simp only [List.mem_cons, List.not_mem_nil, or_false] at h
        rcases h with rfl | rfl | rfl | rfl <;> rw [UInt8.toNat_ofNat'] at hb <;> omega

end JobPlane.Utf8
