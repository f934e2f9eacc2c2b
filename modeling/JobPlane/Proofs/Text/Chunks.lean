import JobPlane.Proofs.Text.Utf8

/-!
# Text in chunks

The bytes of a text cut into chunks that are read one by one. `flatMap_lossyChars_iff` says when this gives the text: if no chunk begins
inside a character. The reason is a count. Every byte that is not inside a character begins a character or an unreadable stretch, so a
chunk that begins inside a character gives one more than a text can have.
-/

namespace JobPlane.Utf8

/-! ## Bytes inside a character -/

/-- A byte that goes on with a character. -/
def Continues (b : UInt8) : Prop := 0x80 ≤ b.toNat ∧ b.toNat < 0xC0

instance (b : UInt8) : Decidable (Continues b) := inferInstanceAs (Decidable (_ ∧ _))

/-- The number of bytes that do not go on with a character. -/
def leads (bs : Bytes) : Nat := bs.countP fun b => ¬Continues b

@[simp] theorem leads_nil : leads [] = 0 := rfl

theorem leads_cons (b : UInt8) (bs : Bytes) : leads (b :: bs) = leads bs + if Continues b then 0 else 1 := by
  by_cases h : Continues b <;> simp [leads, h]

@[simp] theorem leads_append (a b : Bytes) : leads (a ++ b) = leads a + leads b := List.countP_append

/-- Six bits of a character, in a byte that goes on with it. -/
theorem continues_ofNat (n : Nat) : Continues (UInt8.ofNat (n % 0x40 + 0x80)) := by
  simp only [Continues, UInt8.toNat_ofNat']
  omega

/-- A character is written with one byte that begins it, and others that go on with it. -/
theorem encodeChar_eq (c : Char) :
    ∃ b tail, String.utf8EncodeChar c = b :: tail ∧ ¬Continues b ∧ ∀ t ∈ tail, Continues t := by
  have hvalid := toNat_valid c
  have hval : c.val.toNat = c.toNat := rfl
  simp only [String.utf8EncodeChar, hval]
  split
  · refine ⟨_, _, rfl, ?_, by simp⟩
    simp only [Continues, UInt8.toNat_ofNat']
    omega
  · split
    · refine ⟨_, _, rfl, ?_, ?_⟩
      · simp only [Continues, UInt8.toNat_ofNat']
        omega
      · simp only [List.forall_mem_cons]
        exact ⟨continues_ofNat _, List.forall_mem_nil _⟩
    · split
      · refine ⟨_, _, rfl, ?_, ?_⟩
        · simp only [Continues, UInt8.toNat_ofNat']
          omega
        · simp only [List.forall_mem_cons]
          exact ⟨continues_ofNat _, continues_ofNat _, List.forall_mem_nil _⟩
      · refine ⟨_, _, rfl, ?_, ?_⟩
        · simp only [Continues, UInt8.toNat_ofNat']
          omega
        · simp only [List.forall_mem_cons]
          exact ⟨continues_ofNat _, continues_ofNat _, continues_ofNat _, List.forall_mem_nil _⟩

/-- No byte of a character of one byte goes on with a character. -/
theorem not_continues_of_short {c : Char} {b : UInt8} (h : c.toNat < 0x80) (hb : b ∈ String.utf8EncodeChar c) : ¬Continues b := by
  have hval : c.val.toNat = c.toNat := rfl
  rw [String.utf8EncodeChar, hval, if_pos (by omega), List.mem_singleton] at hb
  rw [hb]
  simp only [Continues, UInt8.toNat_ofNat']
  omega

/-- A text has as many characters as bytes that begin one. -/
theorem leads_ofChars (cs : List Char) : leads (Bytes.ofChars cs) = cs.length := by
  induction cs with
  | nil => rfl
  | cons c cs ih =>
    obtain ⟨b, tail, hbytes, hlead, htail⟩ := encodeChar_eq c
    have hnone : leads tail = 0 := by
      refine List.countP_eq_zero.mpr fun t ht => ?_
      simp [htail t ht]
    rw [Bytes.ofChars_cons, hbytes, leads_append, leads_cons, if_neg hlead, hnone, ih, List.length_cons]
    omega

/-! ## How many characters are read -/

/-- The number of characters and unreadable stretches of what has come in. -/
def settled (s : Option Part × List Piece) : Nat := s.2.length + if s.1.isSome then 1 else 0

/-- Only bytes that go on with a character are taken into an open part. -/
def Narrow (s : Option Part × List Piece) : Prop := ∀ p, s.1 = some p → 0x80 ≤ p.low.toNat ∧ p.high.toNat < 0xC0

/-- What a byte opens takes in only bytes that go on with a character. -/
theorem narrow_of_lead {b : UInt8} {p : Part} (h : lead b = .part p) : 0x80 ≤ p.low.toNat ∧ p.high.toNat < 0xC0 := by
  unfold lead at h
  split at h
  · cases h
  · repeat' split at h
    all_goals cases h
    all_goals exact ⟨by simp, by simp⟩

/-- A byte at the start of a character gives one more. -/
theorem settled_start (before : List Piece) (b : UInt8) : settled (start before b) = before.length + 1 ∧ Narrow (start before b) := by
  unfold start
  cases h : lead b with
  | char c => exact ⟨rfl, by simp [Narrow]⟩
  | unreadable => exact ⟨rfl, by simp [Narrow]⟩
  | part p =>
    refine ⟨rfl, ?_⟩
    rintro p' ⟨⟩
    exact narrow_of_lead h

/-- A byte that does not go on with a character gives one more, and every byte does where no character is open. -/
theorem settled_feed {s : Option Part × List Piece} (h : Narrow s) (b : UInt8) :
    settled s + (if Continues b then 0 else 1) ≤ settled (feed s b) ∧ Narrow (feed s b) := by
  obtain ⟨part, before⟩ := s
  cases part with
  | none =>
    obtain ⟨hcount, hnarrow⟩ := settled_start before b
    refine ⟨?_, hnarrow⟩
    have hfeed : feed (none, before) b = start before b := rfl
    rw [hfeed, hcount]
    simp only [settled, Option.isSome_none, Bool.false_eq_true, if_false]
    split <;> omega
  | some p =>
    obtain ⟨hlow, hhigh⟩ := h p rfl
    by_cases hrange : p.low ≤ b ∧ b ≤ p.high
    · have hcontinues : Continues b := by
        rw [UInt8.le_iff_toNat_le, UInt8.le_iff_toNat_le] at hrange
        exact ⟨by omega, by omega⟩
      simp only [feed, if_pos hrange, if_pos hcontinues]
      split
      · exact ⟨by simp [settled], by simp [Narrow]⟩
      · refine ⟨by simp [settled], ?_⟩
        rintro p' ⟨⟩
        exact ⟨by simp, by simp⟩
    · obtain ⟨hcount, hnarrow⟩ := settled_start (.unreadable :: before) b
      simp only [feed, if_neg hrange]
      refine ⟨?_, hnarrow⟩
      rw [hcount]
      simp only [settled, Option.isSome_some, if_true, List.length_cons]
      split <;> omega

/-- Bytes give at least as many characters as there are bytes that begin one. -/
theorem settled_foldl {s : Option Part × List Piece} (h : Narrow s) (bs : Bytes) : settled s + leads bs ≤ settled (bs.foldl feed s) := by
  induction bs generalizing s with
  | nil => exact Nat.le_refl _
  | cons b bs ih =>
    obtain ⟨hcount, hnarrow⟩ := settled_feed h b
    have hrest := ih hnarrow
    rw [List.foldl_cons, leads_cons]
    omega

/-- The number of characters that a byte string is read as. -/
theorem length_lossyChars (bs : Bytes) : (lossyChars bs).length = settled (bs.foldl feed (none, [])) := by
  unfold lossyChars pieces
  rw [List.length_map]
  cases bs.foldl feed (none, []) with
  | mk part before => cases part <;> simp [close, settled]

/-- A byte string is read as at least as many characters as it has bytes that begin one. -/
theorem leads_le (bs : Bytes) : leads bs ≤ (lossyChars bs).length := by
  have h := settled_foldl (s := (none, [])) (by simp [Narrow]) bs
  rw [length_lossyChars]
  simpa [settled] using h

/-- One that begins inside a character is read as more. -/
theorem leads_lt {b : UInt8} (h : Continues b) (bs : Bytes) : leads (b :: bs) < (lossyChars (b :: bs)).length := by
  obtain ⟨hcount, hnarrow⟩ := settled_start [] b
  have hrest := settled_foldl hnarrow bs
  have hfeed : feed (none, []) b = start [] b := rfl
  rw [length_lossyChars, List.foldl_cons, hfeed, leads_cons, if_pos h]
  rw [hcount, List.length_nil] at hrest
  omega

/-! ## Chunks -/

/-- A text is read from its bytes. -/
theorem lossyChars_ofChars (cs : List Char) : lossyChars (Bytes.ofChars cs) = cs := by
  rw [lossyChars, pieces_ofChars, List.map_map]
  exact List.map_id cs

/-- Texts that are written with the same bytes are the same. -/
theorem ofChars_injective {cs cs' : List Char} (h : Bytes.ofChars cs = Bytes.ofChars cs') : cs = cs' := by
  rw [← lossyChars_ofChars cs, h, lossyChars_ofChars]

/-- Where the second part of a text's bytes does not begin inside a character, each part is the bytes of a text. -/
theorem exists_ofChars_of_append {cs : List Char} {a b : Bytes} (h : Bytes.ofChars cs = a ++ b) (hb : ∀ x ∈ b.head?, ¬Continues x) :
    ∃ cs₁ cs₂, a = Bytes.ofChars cs₁ ∧ b = Bytes.ofChars cs₂ := by
  induction cs generalizing a with
  | nil =>
    obtain ⟨rfl, rfl⟩ := List.append_eq_nil_iff.mp h.symm
    exact ⟨[], [], rfl, rfl⟩
  | cons c cs ih =>
    rw [Bytes.ofChars_cons] at h
    rcases List.append_eq_append_iff.mp h with ⟨a', rfl, hrest⟩ | ⟨q, hc, rfl⟩
    · -- the first part has all of the first character
      obtain ⟨cs₁, cs₂, rfl, rfl⟩ := ih hrest
      exact ⟨c :: cs₁, cs₂, by rw [Bytes.ofChars_cons], rfl⟩
    · cases q with
      | nil =>
        rw [List.append_nil] at hc
        exact ⟨[c], cs, by rw [← hc]; simp, by simp⟩
      | cons x q =>
        obtain ⟨lead, tail, hbytes, -, htail⟩ := encodeChar_eq c
        cases a with
        | nil => exact ⟨[], c :: cs, rfl, by rw [Bytes.ofChars_cons, hc]; rfl⟩
        | cons y a =>
          -- the second part would begin inside the first character
          rw [hbytes] at hc
          obtain ⟨rfl, rfl⟩ := List.cons.inj hc
          exact absurd (htail x (by simp)) (hb x (by simp))

/-- Chunks of a text's bytes none of which begins inside a character are the bytes of texts. -/
theorem exists_ofChars_of_flatten {chunks : List Bytes} {cs : List Char} (h : chunks.flatten = Bytes.ofChars cs)
    (hheads : ∀ chunk ∈ chunks, ∀ x ∈ chunk.head?, ¬Continues x) : ∀ chunk ∈ chunks, ∃ part, chunk = Bytes.ofChars part := by
  induction chunks generalizing cs with
  | nil => simp
  | cons chunk chunks ih =>
    have hhead : ∀ x ∈ chunks.flatten.head?, ¬Continues x := by
      intro x hx
      rw [Option.mem_def, List.head?_flatten, List.findSome?_eq_some_iff] at hx
      obtain ⟨before, first, after, rfl, hfirst, -⟩ := hx
      exact hheads first (by simp) x hfirst
    obtain ⟨part, rest, rfl, hrest⟩ := exists_ofChars_of_append (by rw [← h, List.flatten_cons]) hhead
    intro chunk' hchunk'
    rcases List.mem_cons.mp hchunk' with rfl | hmem
    · exact ⟨part, rfl⟩
    · exact ih hrest (fun c hc => hheads c (List.mem_cons_of_mem _ hc)) chunk' hmem

/-- Chunks are read one by one as at least as many characters as they have bytes that begin one, and as more if one of them begins inside
a character. -/
theorem leads_flatten_le (chunks : List Bytes) : leads chunks.flatten ≤ (chunks.flatMap lossyChars).length ∧
    (leads chunks.flatten = (chunks.flatMap lossyChars).length → ∀ chunk ∈ chunks, ∀ x ∈ chunk.head?, ¬Continues x) := by
  induction chunks with
  | nil => simp
  | cons chunk chunks ih =>
    obtain ⟨hle, heq⟩ := ih
    have hone := leads_le chunk
    rw [List.flatten_cons, leads_append, List.flatMap_cons, List.length_append]
    refine ⟨by omega, fun hall chunk' hchunk' x hx => ?_⟩
    rcases List.mem_cons.mp hchunk' with rfl | hmem
    · intro hcontinues
      cases chunk' with
      | nil => simp at hx
      | cons y bs =>
        cases hx
        have hmore := leads_lt hcontinues bs
        omega
    · exact heq (by omega) chunk' hmem x hx

/-- Chunks of a text's bytes that are read one by one give the text exactly if each of them is the bytes of a text. -/
theorem flatMap_lossyChars_iff {chunks : List Bytes} {cs : List Char} (h : chunks.flatten = Bytes.ofChars cs) :
    chunks.flatMap lossyChars = cs ↔ ∀ chunk ∈ chunks, ∃ part, chunk = Bytes.ofChars part := by
  constructor
  · intro hread
    refine exists_ofChars_of_flatten h ((leads_flatten_le chunks).2 ?_)
    rw [h, leads_ofChars, hread]
  · intro hwhole
    have hbytes : Bytes.ofChars (chunks.flatMap lossyChars) = chunks.flatten := by
      clear h
      induction chunks with
      | nil => rfl
      | cons chunk chunks ih =>
        obtain ⟨part, rfl⟩ := hwhole chunk List.mem_cons_self
        rw [List.flatMap_cons, Bytes.ofChars_append, lossyChars_ofChars, List.flatten_cons,
          ih fun c hc => hwhole c (List.mem_cons_of_mem _ hc)]
    exact ofChars_injective (hbytes.trans h)

end JobPlane.Utf8
