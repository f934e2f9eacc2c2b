import Mathlib.Data.List.Basic
import JobPlane.TextMap

/-!
# Entries of maps

A map is that of its entries, and what a key's value is after entries were put into a map: the last entry of the key decides, and where
there is none the map as it was before. The entries ascend, so a key has one entry at most, and those behind it are the ones of greater
keys.
-/

namespace JobPlane.TextMap

variable {m : TextMap} {k v : String}

/-- An entry whose key comes after those of all others goes behind them. -/
theorem place_last {k v : String} {es : List (String × String)} (h : ∀ e ∈ es, e.1 < k) : place k v es = es ++ [(k, v)] := by
  induction es with
  | nil => rfl
  | cons e es ih =>
    have hlt : e.1 < k := h e List.mem_cons_self
    have hnot : ¬k < e.1 := fun hgt => String.lt_irrefl _ (String.lt_trans hlt hgt)
    have hne : k ≠ e.1 := by
      rintro rfl
      exact String.lt_irrefl _ hlt
    rw [place, if_neg hnot, if_neg hne, ih fun d hd => h d (List.mem_cons_of_mem e hd), List.cons_append]

/-- Entries in ascending order go behind those of a map, if their keys come after all of its keys. -/
theorem foldl_insert {es : List (String × String)} {m : TextMap} (h : (m.entries ++ es).Pairwise fun a b => a.1 < b.1) :
    (es.foldl (fun m (k, v) => m.insert k v) m).entries = m.entries ++ es := by
  induction es generalizing m with
  | nil => exact (List.append_nil _).symm
  | cons e es ih =>
    have hlast : (m.insert e.1 e.2).entries = m.entries ++ [e] :=
      place_last fun d hd => (List.pairwise_append.mp h).2.2 d hd e List.mem_cons_self
    rw [List.foldl_cons, ih (by rwa [hlast, List.append_assoc, List.singleton_append]), hlast, List.append_assoc,
      List.singleton_append]

/-- A map is that of its entries. -/
theorem ofList_entries (m : TextMap) : ofList m.entries = m := by
  have hentries : (ofList m.entries).entries = m.entries := foldl_insert (m := empty) m.ascending
  cases hm : ofList m.entries
  cases m
  simp only [hm] at hentries
  simp only [mk.injEq]
  exact hentries

/-! ## Looking up -/

/-- The first entry of a key decides. -/
theorem lookup_cons_eq_ite (l k v : String) (es : List (String × String)) :
    ((k, v) :: es).lookup l = if l = k then some v else es.lookup l := by
  by_cases hl : l = k
  · simp [hl]
  · rw [List.lookup_cons, beq_false_of_ne hl, if_neg hl]

/-- A key that an entry is placed for has its value, and all others the one they had. -/
theorem lookup_place (k v l : String) (es : List (String × String)) :
    (place k v es).lookup l = if l = k then some v else es.lookup l := by
  induction es with
  | nil => exact lookup_cons_eq_ite l k v []
  | cons e es ih =>
    rcases e with ⟨key, w⟩
    unfold place
    split
    · rw [lookup_cons_eq_ite]
    · split
      · -- the older entry of the key is gone
        rename_i hkey
        rw [lookup_cons_eq_ite, lookup_cons_eq_ite, hkey]
        split_ifs <;> rfl
      · rename_i hkey
        rw [lookup_cons_eq_ite, lookup_cons_eq_ite, ih]
        by_cases hl : l = k
        · simp [hl, hkey]
        · simp [hl]

/-- Setting the value of a key sets that of no other. -/
theorem get?_insert (m : TextMap) (k v l : String) : (m.insert k v).get? l = if l = k then some v else m.get? l :=
  lookup_place k v l m.entries

/-- Of the entries put into a map the last one of a key decides. -/
theorem get?_foldl_insert (es : List (String × String)) (m : TextMap) (k : String) :
    (es.foldl (fun m (k, v) => m.insert k v) m).get? k = (es.reverse.lookup k).or (m.get? k) := by
  induction es generalizing m with
  | nil => rfl
  | cons e es ih =>
    rcases e with ⟨key, v⟩
    rw [List.foldl_cons, ih, List.reverse_cons, List.lookup_append, get?_insert, Option.or_assoc]
    rw [lookup_cons_eq_ite]
    by_cases hk : k = key <;> simp [hk]

/-- The last entry of a key in a list is the one that its map keeps. -/
theorem get?_ofList (es : List (String × String)) (k : String) : (ofList es).get? k = es.reverse.lookup k := by
  rw [ofList, get?_foldl_insert]
  exact Option.or_none

/-- The entries of the map on top have the say on their own keys. -/
theorem get?_overlay (base top : TextMap) (k : String) : (base.overlay top).get? k = (top.get? k).or (base.get? k) := by
  rw [overlay, get?_foldl_insert, ← get?_ofList, ofList_entries]

/-- A key has a value exactly where an entry says so. -/
theorem get?_eq_some_iff : m.get? k = some v ↔ (k, v) ∈ m.entries := by
  unfold get?
  rw [List.lookup_eq_some_iff]
  constructor
  · rintro ⟨before, after, hentries, -⟩
    simp [hentries]
  · intro hmem
    obtain ⟨before, after, hentries⟩ := List.append_of_mem hmem
    refine ⟨before, after, hentries, fun e he => ?_⟩
    have hascending := m.ascending
    rw [hentries, List.pairwise_append] at hascending
    have hlt : e.1 < k := hascending.2.2 e he _ List.mem_cons_self
    simpa using fun heq : k = e.1 => String.lt_irrefl k (heq ▸ hlt)

/-- The entries behind that of a key are those of greater keys. -/
theorem mem_behind_iff {before after : List (String × String)} (h : m.entries = before ++ (k, v) :: after) {l w : String} :
    (l, w) ∈ after ↔ m.get? l = some w ∧ k < l := by
  have hascending := m.ascending
  rw [h, List.pairwise_append, List.pairwise_cons] at hascending
  rw [get?_eq_some_iff, h]
  constructor
  · intro hmem
    exact ⟨by simp [hmem], hascending.2.1.1 _ hmem⟩
  · rintro ⟨hmem, hlt⟩
    rcases List.mem_append.mp hmem with hbefore | hmem
    · have hgt : l < k := hascending.2.2 _ hbefore _ List.mem_cons_self
      exact absurd (String.lt_trans hlt hgt) (String.lt_irrefl k)
    · rcases List.mem_cons.mp hmem with heq | hafter
      · cases heq
        exact absurd hlt (String.lt_irrefl _)
      · exact hafter

end JobPlane.TextMap
