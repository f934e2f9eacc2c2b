/-!
# Maps from text to text

A map is kept as its entries in ascending order of keys, no key twice, so that equal maps are equal as values and their entries
always come in the same order. The order of texts is that of their characters, which is also the order of their UTF-8 bytes.
-/

namespace JobPlane

/-- A map from texts to texts. -/
structure TextMap where
  entries : List (String × String)
  /-- The keys ascend. -/
  ascending : entries.Pairwise fun a b => a.1 < b.1

namespace TextMap

instance : DecidableEq TextMap := fun a b =>
  decidable_of_iff (a.entries = b.entries) (by cases a; cases b; simp)

/-- The map without entries. -/
def empty : TextMap := ⟨[], .nil⟩

instance : Inhabited TextMap := ⟨empty⟩

/-- Puts an entry into its place, instead of an older one of the same key. -/
def place (k v : String) : List (String × String) → List (String × String)
  | [] => [(k, v)]
  | (l, w) :: rest =>
    if k < l then (k, v) :: (l, w) :: rest
    else if k = l then (k, v) :: rest
    else (l, w) :: place k v rest

/-- The keys after placing an entry. -/
theorem mem_place {k v : String} {es : List (String × String)} {e : String × String} (h : e ∈ place k v es) :
    e = (k, v) ∨ e ∈ es := by
  induction es with
  | nil => simpa [place] using h
  | cons d rest ih =>
    obtain ⟨l, w⟩ := d
    unfold place at h
    split at h
    · simpa using h
    · split at h
      · rcases List.mem_cons.1 h with h | h
        · exact .inl h
        · exact .inr (List.mem_cons_of_mem _ h)
      · rcases List.mem_cons.1 h with h | h
        · exact .inr (by simp [h])
        · rcases ih h with h | h
          · exact .inl h
          · exact .inr (List.mem_cons_of_mem _ h)

/-- Placing an entry keeps the keys ascending. -/
theorem pairwise_place {k v : String} {es : List (String × String)} (h : es.Pairwise fun a b => a.1 < b.1) :
    (place k v es).Pairwise fun a b => a.1 < b.1 := by
  induction es with
  | nil => simp [place]
  | cons d rest ih =>
    obtain ⟨l, w⟩ := d
    rw [List.pairwise_cons] at h
    unfold place
    split
    · rename_i hkl
      refine List.pairwise_cons.2 ⟨?_, List.pairwise_cons.2 h⟩
      intro b hb
      rcases List.mem_cons.1 hb with rfl | hb
      · exact hkl
      · exact String.lt_trans hkl (h.1 b hb)
    · split
      · rename_i hkl
        exact List.pairwise_cons.2 ⟨fun b hb => hkl ▸ h.1 b hb, h.2⟩
      · rename_i hlt hne
        refine List.pairwise_cons.2 ⟨?_, ih h.2⟩
        intro b hb
        rcases mem_place hb with rfl | hb
        · exact Decidable.byContradiction fun hlk => hne (String.le_antisymm (String.not_lt.1 hlk) (String.not_lt.1 hlt))
        · exact h.1 b hb

/-- Sets the value of a key. -/
def insert (m : TextMap) (k v : String) : TextMap := ⟨place k v m.entries, pairwise_place m.ascending⟩

/-- The map of a list of entries, of which later ones replace earlier ones of the same key. -/
def ofList (es : List (String × String)) : TextMap := es.foldl (fun m (k, v) => m.insert k v) empty

/-- The value of a key. -/
def get? (m : TextMap) (k : String) : Option String := m.entries.lookup k

/-- A map with the entries of another put over its own. -/
def overlay (base top : TextMap) : TextMap := top.entries.foldl (fun m (k, v) => m.insert k v) base

end TextMap

end JobPlane
