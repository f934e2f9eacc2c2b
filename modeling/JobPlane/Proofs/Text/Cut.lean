import JobPlane.Text.Cut

/-!
# Texts that are cut

What the parts are of a text that is cut at its last separator or into pieces, and which texts are cut into given parts.
-/

namespace JobPlane.Text

variable {sep : Char} {cs a b : List Char}

/-- The two parts of a cut at the last separator, with the separator between them, are the text. -/
theorem eq_of_cutLast (h : cutLast sep cs = some (a, b)) : cs = a ++ sep :: b ∧ sep ∉ b := by
  obtain ⟨⟨x, y⟩, hcut, heq⟩ := Option.map_eq_some_iff.mp h
  obtain ⟨rfl, rfl⟩ := Prod.mk.inj heq
  obtain ⟨hcs, hnot⟩ := eq_of_cutFirst hcut
  refine ⟨?_, by simpa using hnot⟩
  have hreverse := congrArg List.reverse hcs
  simpa using hreverse

/-- A text is cut at the last separator, whatever stands before it. -/
theorem cutLast_append (a : List Char) (h : sep ∉ b) : cutLast sep (a ++ sep :: b) = some (a, b) := by
  have hreverse : (a ++ sep :: b).reverse = b.reverse ++ sep :: a.reverse := by simp
  rw [cutLast, hreverse, cutFirst_append a.reverse (by simpa using h)]
  simp

/-- What follows the last separator ends what follows any other. -/
theorem suffix_of_cutLast {c d : List Char} (h : cutLast sep (c ++ sep :: d) = some (a, b)) : b <:+ d := by
  obtain ⟨hcs, hnot⟩ := eq_of_cutLast h
  rcases List.append_eq_append_iff.mp hcs with ⟨e, -, he⟩ | ⟨e, -, he⟩
  · rcases List.cons_eq_append_iff.mp he with ⟨-, hb⟩ | ⟨e', -, hd⟩
    · cases hb
      exact List.suffix_rfl
    · exact ⟨e' ++ [sep], by simp [hd]⟩
  · rcases List.cons_eq_append_iff.mp he with ⟨-, hd⟩ | ⟨e', -, hb⟩
    · cases hd
      exact List.suffix_rfl
    · exact absurd (by simp [hb]) hnot

/-- A text without separators is one piece. -/
theorem pieces_of_notMem (h : sep ∉ cs) : pieces sep cs = [cs] := by
  induction cs with
  | nil => rfl
  | cons c cs ih =>
    rw [List.mem_cons, not_or] at h
    rw [pieces, if_neg (Ne.symm h.1), ih h.2]

/-- What stands before a separator is cut apart from what stands behind it. -/
theorem pieces_append (a b : List Char) : pieces sep (a ++ sep :: b) = pieces sep a ++ pieces sep b := by
  induction a with
  | nil => simp [pieces]
  | cons c a ih =>
    by_cases hc : c = sep
    · rw [List.cons_append, pieces, if_pos hc, ih, pieces, if_pos hc, List.cons_append]
    · rw [List.cons_append, pieces, if_neg hc, ih, pieces, if_neg hc]
      obtain ⟨p, ps, hp⟩ := List.exists_cons_of_ne_nil (pieces_ne_nil sep a)
      rw [hp, List.cons_append]
      rfl

/-- No piece has a separator. -/
theorem notMem_of_mem_pieces {p : List Char} (h : p ∈ pieces sep cs) : sep ∉ p := by
  induction cs generalizing p with
  | nil =>
    rw [pieces, List.mem_singleton] at h
    simp [h]
  | cons c cs ih =>
    unfold pieces at h
    split at h
    · rcases List.mem_cons.mp h with rfl | h
      · exact List.not_mem_nil
      · exact ih h
    · rename_i hc
      split at h
      · rw [List.mem_singleton] at h
        simp [h, Ne.symm hc]
      · -- the character goes to the front of the first piece, and the others are as they were
        rename_i q qs hpieces
        rw [hpieces] at ih
        rcases List.mem_cons.mp h with rfl | h
        · simp [Ne.symm hc, ih List.mem_cons_self]
        · exact ih (List.mem_cons_of_mem q h)

end JobPlane.Text
