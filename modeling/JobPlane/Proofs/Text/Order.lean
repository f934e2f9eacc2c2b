import JobPlane.Proofs.Text.Utf8

/-!
# The order of texts

Texts are ordered by their characters, and strings of bytes by their bytes. UTF-8 keeps the order: where two characters differ, the bytes of
the smaller one come first, whatever follows either of them (`encodeChar_lt`), so texts are in the order of their bytes (`ofText_lt_iff`).
-/

namespace JobPlane.Utf8

/-- Of two numbers, the one with the smaller part before the last six bits is smaller, or it has the same and the smaller six bits. -/
theorem lt_iff_digits {m n : Nat} : m < n ↔ m / 64 < n / 64 ∨ m / 64 = n / 64 ∧ m % 64 < n % 64 := by
  omega

/-- A smaller character is written with smaller bytes, whatever follows. -/
theorem encodeChar_lt {c d : Char} (h : c < d) (as bs : Bytes) :
    String.utf8EncodeChar c ++ as < String.utf8EncodeChar d ++ bs := by
  have hlt : c.toNat < d.toNat := h
  have hc := toNat_valid c
  have hd := toNat_valid d
  have hcval : c.val.toNat = c.toNat := rfl
  have hdval : d.val.toNat = d.toNat := rfl
  have hdigits := hlt
  rw [lt_iff_digits, lt_iff_digits (m := c.toNat / 64), lt_iff_digits (m := c.toNat / 64 / 64)] at hdigits
  have hquot : ∀ n, n / 4096 = n / 64 / 64 ∧ n / 262144 = n / 64 / 64 / 64 := fun n => by
    rw [Nat.div_div_eq_div_mul, Nat.div_div_eq_div_mul]
    exact ⟨rfl, rfl⟩
  simp only [String.utf8EncodeChar, hcval, hdval, hquot]
  -- each of the two is written in one of four lengths, and the longer one has the greater first byte
  repeat' split
  all_goals
    simp only [List.cons_append, List.nil_append, List.cons_lt_cons_iff, UInt8.lt_iff_toNat_lt, ← UInt8.toNat_inj,
      UInt8.toNat_ofNat']
    omega

/-- A smaller list of characters is written with smaller bytes. -/
theorem ofChars_lt {cs ds : List Char} (h : cs < ds) : Bytes.ofChars cs < Bytes.ofChars ds := by
  induction cs generalizing ds with
  | nil =>
    rcases ds with _ | ⟨d, ds⟩
    · exact absurd h (List.not_lt_nil _)
    · have hne : String.utf8EncodeChar d ≠ [] := by simp
      obtain ⟨b, bs, hbytes⟩ := List.exists_cons_of_ne_nil hne
      rw [Bytes.ofChars_nil, Bytes.ofChars_cons, hbytes]
      exact List.nil_lt_cons b _
  | cons c cs ih =>
    rcases ds with _ | ⟨d, ds⟩
    · exact absurd h (List.not_lt_nil _)
    · rw [Bytes.ofChars_cons, Bytes.ofChars_cons]
      rcases List.cons_lt_cons_iff.mp h with hlt | ⟨rfl, hrest⟩
      · exact encodeChar_lt hlt _ _
      · exact List.append_left_lt (ih hrest)

/-- Texts are in the order of their bytes. -/
theorem ofText_lt_iff {a b : String} : Bytes.ofText a < Bytes.ofText b ↔ a < b := by
  constructor
  · intro h
    refine Decidable.byContradiction fun hnot => ?_
    have hle : b ≤ a := String.not_lt.mp hnot
    by_cases hlt : b < a
    · exact List.lt_asymm h (ofChars_lt (String.lt_iff.mp hlt))
    · obtain rfl := String.le_antisymm hle (String.not_lt.mp hlt)
      exact List.lt_irrefl _ h
  · intro h
    exact ofChars_lt (String.lt_iff.mp h)

end JobPlane.Utf8
