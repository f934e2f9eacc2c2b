import JobPlane.Json.Record
import JobPlane.Json.Writer
import JobPlane.Proofs.Text.Utf8
import Mathlib.Tactic.IntervalCases

/-!
# Texts as JSON strings and back

A text that is written as a JSON string is read back from it (`readString_writeString`), whatever follows the string and whatever is in
the text. Its written form has no line break in it.
-/

namespace JobPlane.Json

/-! ## One character -/

/-- A byte that stands for itself in a string. -/
def Plain (b : UInt8) : Prop := b ≠ 0x22 ∧ b ≠ 0x5C ∧ ¬b < 0x20

/-- Bytes that stand for themselves are read as they are. -/
theorem readStringFrom_plain {ps : Bytes} (h : ∀ b ∈ ps, Plain b) (before rest : Bytes) :
    readStringFrom before (ps ++ rest) = readStringFrom (ps.reverse ++ before) rest := by
  induction ps generalizing before with
  | nil => rfl
  | cons b ps ih =>
    obtain ⟨hquote, hslash, hcontrol⟩ := h b List.mem_cons_self
    rw [List.cons_append, readStringFrom, if_neg hquote, if_neg hslash, if_neg hcontrol,
      ih fun c hc => h c (List.mem_cons_of_mem b hc)]
    simp

/-- A character that is not escaped is written in bytes that stand for themselves. -/
theorem plain_of_mem_encodeChar {c : Char} (hquote : c ≠ '"') (hslash : c ≠ '\\') (hcontrol : 0x20 ≤ c.toNat) {b : UInt8}
    (hb : b ∈ String.utf8EncodeChar c) : Plain b := by
  have hne (n : UInt8) (d : Char) (hn : n.toNat < 0x80) (hd : d.toNat = n.toNat) (hc : c ≠ d) : b ≠ n := by
    rintro rfl
    have hnat := Utf8.toNat_of_mem_encodeChar hb hn
    exact hc (by rw [← Char.ofNat_toNat c, ← hnat, ← hd, Char.ofNat_toNat])
  refine ⟨hne 0x22 '"' (by decide) (by decide) hquote, hne 0x5C '\\' (by decide) (by decide) hslash, fun hlt => ?_⟩
  rw [UInt8.lt_iff_toNat_lt] at hlt
  have hlt : b.toNat < 32 := hlt
  have hnat := Utf8.toNat_of_mem_encodeChar hb (by omega)
  omega

/-- A control is written as an escape that is read as the control. -/
theorem readEscape_control {n : Nat} (h : n < 0x20) :
    ∃ tail, Bytes.ofChars (escapeChar (Char.ofNat n)) = 0x5C :: tail ∧
      ∀ rest, readEscape (tail ++ rest) = .ok (Char.ofNat n, tail.length) := by
  interval_cases n <;> exact ⟨_, rfl, fun _ => rfl⟩

/-- A character is written as it is, or as an escape that is read as the character. -/
theorem escapeChar_cases (c : Char) :
    (escapeChar c = [c] ∧ ∀ b ∈ String.utf8EncodeChar c, Plain b) ∨
      ∃ tail, Bytes.ofChars (escapeChar c) = 0x5C :: tail ∧ ∀ rest, readEscape (tail ++ rest) = .ok (c, tail.length) := by
  by_cases hquote : c = '"'
  · subst hquote
    exact Or.inr ⟨_, rfl, fun _ => rfl⟩
  · by_cases hslash : c = '\\'
    · subst hslash
      exact Or.inr ⟨_, rfl, fun _ => rfl⟩
    · by_cases hcontrol : 0x20 ≤ c.toNat
      · refine Or.inl ⟨?_, fun b hb => plain_of_mem_encodeChar hquote hslash hcontrol hb⟩
        rw [escapeChar, if_neg hquote, if_neg hslash, if_pos hcontrol]
      · right
        have h := readEscape_control (Nat.lt_of_not_le hcontrol)
        rwa [Char.ofNat_toNat] at h

/-! ## Texts -/

/-- The characters of a text are read back up to the closing quote, after the text before them. -/
theorem readStringFrom_escaped (cs before : List Char) (rest : Bytes) :
    readStringFrom (Bytes.ofChars before).reverse (Bytes.ofChars (cs.flatMap escapeChar) ++ 0x22 :: rest) =
      .ok (before ++ cs, rest) := by
  induction cs generalizing before with
  | nil =>
    simp only [List.flatMap_nil, Bytes.ofChars_nil, List.nil_append, List.append_nil]
    rw [readStringFrom, if_pos rfl, List.reverse_reverse, Utf8.decodeChars?_ofChars]
  | cons c cs ih =>
    have hbefore : Bytes.ofChars (before ++ [c]) = Bytes.ofChars before ++ String.utf8EncodeChar c := by simp
    have hstep := ih (before ++ [c])
    rw [hbefore, List.reverse_append, List.append_assoc, List.singleton_append] at hstep
    rw [List.flatMap_cons, Bytes.ofChars_append, List.append_assoc]
    rcases escapeChar_cases c with ⟨hself, hplain⟩ | ⟨tail, htail, hread⟩
    · rw [hself, Bytes.ofChars_cons, Bytes.ofChars_nil, List.append_nil, readStringFrom_plain hplain]
      exact hstep
    · rw [htail, List.cons_append, readStringFrom, if_neg (by decide), if_pos rfl, hread]
      simp only [List.drop_left']
      exact hstep

/-- The bytes of a written string: a quote, the text with its escapes, and a quote. -/
theorem ofText_writeString (s : String) :
    Bytes.ofText (writeString s) = 0x22 :: (Bytes.ofChars (s.toList.flatMap escapeChar) ++ [0x22]) := by
  have hquote : String.utf8EncodeChar '"' = [0x22] := by decide
  simp [Bytes.ofText, writeString, writeChars, hquote]

/-- A text that is written as a string is read back, and what follows it is left. -/
theorem readString_writeString (s : String) (rest : Bytes) :
    readString (Bytes.ofText (writeString s) ++ rest) = .ok (s, rest) := by
  have hread := readStringFrom_escaped s.toList [] rest
  have hblank : isBlank 0x22 = false := by decide
  rw [Bytes.ofChars_nil, List.reverse_nil, List.nil_append] at hread
  rw [ofText_writeString, List.cons_append, List.append_assoc, List.singleton_append]
  simp only [readString, skipBlanks, List.dropWhile_cons, hblank, Bool.false_eq_true, if_false, hread]
  simp [Except.map]

/-- A line break is written as an escape. -/
theorem line_break_notMem_escapeChar (c : Char) : '\n' ∉ escapeChar c := by
  by_cases hcontrol : 0x20 ≤ c.toNat
  · have hne : c ≠ '\n' := by
      rintro rfl
      simp at hcontrol
    unfold escapeChar
    split
    · decide
    · split
      · decide
      · simpa using hne.symm
  · obtain ⟨n, hn, rfl⟩ : ∃ n, n < 0x20 ∧ c = Char.ofNat n := ⟨c.toNat, Nat.lt_of_not_le hcontrol, (Char.ofNat_toNat c).symm⟩
    have hall : ∀ n, n < 0x20 → '\n' ∉ escapeChar (Char.ofNat n) := by decide
    exact hall n hn

/-- Bytes of a text without line breaks hold no byte of a line break. -/
theorem line_break_notMem_ofChars {cs : List Char} (h : '\n' ∉ cs) : (0x0A : UInt8) ∉ Bytes.ofChars cs := by
  intro hmem
  obtain ⟨c, hc, hb⟩ := List.mem_flatMap.mp hmem
  have hnat : (0x0A : UInt8).toNat = c.toNat := Utf8.toNat_of_mem_encodeChar hb (by decide)
  have heq : c = '\n' := by rw [← Char.ofNat_toNat c, ← hnat]; rfl
  exact h (heq ▸ hc)

/-- There is no line break in a written string. -/
theorem line_break_notMem_writeString (s : String) : (0x0A : UInt8) ∉ Bytes.ofText (writeString s) := by
  have hescaped : '\n' ∉ s.toList.flatMap escapeChar := by
    intro hmem
    obtain ⟨c, -, hc⟩ := List.mem_flatMap.mp hmem
    exact line_break_notMem_escapeChar c hc
  have htext := line_break_notMem_ofChars hescaped
  rw [ofText_writeString]
  simp only [List.mem_cons, List.mem_append, List.not_mem_nil, or_false, not_or]
  exact ⟨by decide, htext, by decide⟩

end JobPlane.Json
