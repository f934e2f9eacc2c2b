import JobPlane.Text.Blank
import JobPlane.Text.Cut
import Mathlib.Data.List.DropRight

/-!
# Texts without the blanks around them

Blanks at the ends of a text are no matter once it is trimmed (`trim_append`), a text is what is left of it with blanks at both ends
(`exists_blanks`), what is left has no blank at either end (`isBlank_head_trim`, `isBlank_getLast_trim`), and the case of letters has
nothing to do with it (`foldCase_trim`).
-/

namespace JobPlane.Text

variable {cs lead trail : List Char}

/-- Blanks at the left end are no matter. -/
theorem trimLeft_append (cs : List Char) (hl : ∀ c ∈ lead, isBlank c = true) : trimLeft (lead ++ cs) = trimLeft cs :=
  List.dropWhile_append_of_pos hl

/-- Blanks at the right end are no matter. -/
theorem trimRight_append (cs : List Char) (hr : ∀ c ∈ trail, isBlank c = true) : trimRight (cs ++ trail) = trimRight cs := by
  rw [trimRight, trimRight, List.reverse_append, List.dropWhile_append_of_pos (by simpa using hr)]

/-- Blanks alone leave nothing. -/
theorem trimLeft_blanks (hl : ∀ c ∈ lead, isBlank c = true) : trimLeft lead = [] := by
  simpa [trimLeft] using trimLeft_append [] hl

/-- Blanks at both ends are no matter. -/
theorem trim_append (cs : List Char) (hl : ∀ c ∈ lead, isBlank c = true) (hr : ∀ c ∈ trail, isBlank c = true) :
    trim (lead ++ cs ++ trail) = trim cs := by
  rw [List.append_assoc, trim, trimLeft_append _ hl, trim]
  by_cases hblank : trimLeft cs = []
  · -- where the text is blank throughout, trimming from the left takes the blanks at the right end, too
    have hall : ∀ c ∈ cs ++ trail, isBlank c = true := by
      intro c hc
      rcases List.mem_append.mp hc with hc | hc
      · have htaken := List.takeWhile_append_dropWhile (p := isBlank) (l := cs)
        rw [← trimLeft, hblank, List.append_nil] at htaken
        rw [← htaken] at hc
        exact List.all_eq_true.mp List.all_takeWhile c hc
      · exact hr c hc
    rw [trimLeft_blanks hall, hblank]
  · have hkept : trimLeft (cs ++ trail) = trimLeft cs ++ trail := by
      have hsome : (cs.dropWhile isBlank).isEmpty = false := by simpa [trimLeft] using hblank
      rw [trimLeft, List.dropWhile_append, hsome]
      rfl
    rw [hkept, trimRight_append _ hr]

/-- A text is what is left of it when it is trimmed, with blanks at both ends. -/
theorem exists_blanks (cs : List Char) :
    ∃ lead trail, cs = lead ++ trim cs ++ trail ∧ (∀ c ∈ lead, isBlank c = true) ∧ ∀ c ∈ trail, isBlank c = true := by
  refine ⟨cs.takeWhile isBlank, ((trimLeft cs).reverse.takeWhile isBlank).reverse, ?_, ?_, ?_⟩
  · have hright : trim cs ++ ((trimLeft cs).reverse.takeWhile isBlank).reverse = trimLeft cs := by
      rw [trim, trimRight, ← List.reverse_append, List.takeWhile_append_dropWhile, List.reverse_reverse]
    rw [List.append_assoc, hright]
    exact List.takeWhile_append_dropWhile.symm
  · exact List.all_eq_true.mp List.all_takeWhile
  · intro c hc
    exact List.all_eq_true.mp List.all_takeWhile c (List.mem_reverse.mp hc)

/-- A text that neither begins nor ends with a blank is left as it is. -/
theorem trim_eq_self (hne : cs ≠ []) (hfirst : isBlank (cs.head hne) = false) (hlast : isBlank (cs.getLast hne) = false) :
    trim cs = cs := by
  have hleft : trimLeft cs = cs := by
    obtain ⟨c, rest, rfl⟩ := List.exists_cons_of_ne_nil hne
    exact List.dropWhile_cons_of_neg (by simpa using hfirst)
  have hright : trimRight cs = cs := List.rdropWhile_eq_self_iff.mpr fun _ => by simp [hlast]
  rw [trim, hleft, hright]

/-- A text without blanks is left as it is. -/
theorem trim_of_no_blanks (h : ∀ c ∈ cs, isBlank c = false) : trim cs = cs := by
  by_cases hne : cs = []
  · rw [hne]
    rfl
  · exact trim_eq_self hne (h _ (List.head_mem hne)) (h _ (List.getLast_mem hne))

/-- What is left of a text does not begin with a blank. -/
theorem isBlank_head_trim (h : trim cs ≠ []) : isBlank ((trim cs).head h) = false := by
  have hpre : trim cs <+: trimLeft cs := List.rdropWhile_prefix isBlank (trimLeft cs)
  rw [hpre.head h]
  exact List.head_dropWhile_not ..

/-- What is left of a text does not end with a blank. -/
theorem isBlank_getLast_trim (h : trim cs ≠ []) : isBlank ((trim cs).getLast h) = false :=
  Bool.eq_false_iff.mpr (List.rdropWhile_last_not isBlank (trimLeft cs) h)

/-! ## The case of letters -/

/-- A letter is no blank, nor is it a sign. -/
theorem toLower_cases (c : Char) : c.toLower = c ∨ (65 ≤ c.toNat ∧ c.toNat ≤ 90 ∧ c.toLower.toNat = c.toNat + 32) := by
  unfold Char.toLower
  split
  · rename_i h
    right
    simp only [ge_iff_le, UInt32.le_iff_toNat_le] at h
    simp only [Char.toNat, UInt32.toNat_add]
    change 65 ≤ c.val.toNat ∧ c.val.toNat ≤ 90 at h
    change 65 ≤ c.val.toNat ∧ c.val.toNat ≤ 90 ∧ (c.val.toNat + 32) % 4294967296 = c.val.toNat + 32
    omega
  · exact Or.inl rfl

/-- What is a blank is one in whatever case. -/
theorem isBlank_toLower (c : Char) : isBlank c.toLower = isBlank c := by
  rcases toLower_cases c with h | ⟨hlow, hhigh, h⟩
  · rw [h]
  · have hno : ∀ d : Char, 65 ≤ d.toNat → d.toNat ≤ 122 → isBlank d = false := by
      intro d hd hd'
      simp only [isBlank, Bool.or_eq_false_iff, Bool.and_eq_false_iff, decide_eq_false_iff_not]
      omega
    rw [hno c hlow (by omega), hno c.toLower (by omega) (by omega)]

/-- A sign below the letters is itself in whatever case, and nothing else becomes it. -/
theorem toLower_eq_iff {c sign : Char} (h : sign.toNat < 65) : c.toLower = sign ↔ c = sign := by
  rcases toLower_cases c with hc | ⟨hlow, hhigh, hc⟩
  · rw [hc]
  · constructor
    · intro heq
      rw [heq] at hc
      omega
    · rintro rfl
      omega

/-- Trimming has nothing to do with the case of letters. -/
theorem foldCase_trim (cs : List Char) : foldCase (trim cs) = trim (foldCase cs) := by
  have hdrop : ∀ ds : List Char, (ds.dropWhile isBlank).map Char.toLower = (ds.map Char.toLower).dropWhile isBlank := by
    intro ds
    rw [List.dropWhile_map, show isBlank ∘ Char.toLower = isBlank from funext isBlank_toLower]
  simp only [trim, trimLeft, trimRight, foldCase, List.map_reverse, hdrop]

end JobPlane.Text
