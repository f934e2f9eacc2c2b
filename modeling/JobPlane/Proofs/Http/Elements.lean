import JobPlane.Http.Header
import JobPlane.Proofs.Text.Blank
import JobPlane.Proofs.Text.Cut

/-!
# What header lines list

The lines of a header, seen as bytes: a line that is legible is made of elements with commas between them (`exists_joined`), and what its
header lists are the elements of the legible lines (`any_elements_iff`). Whether a word is listed follows (`listsWord_iff`).
-/

namespace JobPlane.Http

/-- A line that can be read: it holds tabs and printable ASCII only. -/
def Legible (line : Bytes) : Prop := ∀ b ∈ line, b = 9 ∨ (32 ≤ b ∧ b < 127)

instance (line : Bytes) : Decidable (Legible line) := List.decidableBAll (fun b => b = 9 ∨ (32 ≤ b ∧ b < 127)) line

/-- The characters that the bytes of a legible line stand for. -/
def letters (bs : Bytes) : List Char := bs.map fun b => Char.ofNat b.toNat

/-- An element of a legible line. -/
structure IsElement (e : Bytes) : Prop where
  legible : Legible e
  whole : 44 ∉ e

/-- The line of elements with commas between them. -/
def joined : List Bytes → Bytes
  | [] => []
  | [e] => e
  | e :: e' :: es => e ++ 44 :: joined (e' :: es)

/-- Spaces and tabs. -/
def IsBlanks (bs : Bytes) : Prop := ∀ b ∈ bs, b = 32 ∨ b = 9

/-- Lines list an element with some property. -/
def Lists (lines : List Bytes) (P : Bytes → Prop) : Prop :=
  ∃ es : List Bytes, es ≠ [] ∧ (∀ e ∈ es, IsElement e) ∧ joined es ∈ lines ∧ ∃ e ∈ es, P e

/-- An element is a word, in whatever case and with whatever blanks around it. -/
def IsWord (word : String) (e : Bytes) : Prop :=
  ∃ lead t trail, e = lead ++ t ++ trail ∧ IsBlanks lead ∧ IsBlanks trail ∧ Text.foldCase (letters t) = Text.foldCase word.toList

variable {line a b e : Bytes} {es : List Bytes} {lines : List Bytes}

/-! ## Legible bytes -/

/-- Bytes are legible where their parts are. -/
theorem legible_append : Legible (a ++ b) ↔ Legible a ∧ Legible b := by simp [Legible, or_imp, forall_and]

/-- Bytes are legible where the first one and the others are. -/
theorem legible_cons {x : UInt8} : Legible (x :: a) ↔ (x = 9 ∨ (32 ≤ x ∧ x < 127)) ∧ Legible a := by simp [Legible]

/-- Blanks are legible. -/
theorem IsBlanks.legible (h : IsBlanks a) : Legible a := by
  intro x hx
  rcases h x hx with rfl | rfl
  · exact Or.inr (by decide)
  · exact Or.inl rfl

@[simp] theorem letters_append (a b : Bytes) : letters (a ++ b) = letters a ++ letters b := List.map_append

/-- The code of the character that a byte stands for is the byte. -/
theorem toNat_letter (x : UInt8) : (Char.ofNat x.toNat).toNat = x.toNat := by
  have hx := x.toNat_lt
  have hvalid : x.toNat.isValidChar := Or.inl (by omega)
  rw [Char.ofNat, dif_pos hvalid]
  rfl

/-- A byte stands for a character exactly if it is the code of that. -/
theorem mem_letters_iff {x : UInt8} {bs : Bytes} : Char.ofNat x.toNat ∈ letters bs ↔ x ∈ bs := by
  simp only [letters, List.mem_map]
  constructor
  · rintro ⟨y, hy, heq⟩
    have hcode := congrArg Char.toNat heq
    rw [toNat_letter, toNat_letter, UInt8.toNat_inj] at hcode
    exact hcode ▸ hy
  · intro hx
    exact ⟨x, hx, rfl⟩

/-- Of legible bytes those that are blanks are spaces and tabs. -/
theorem isBlanks_iff (h : Legible a) : IsBlanks a ↔ ∀ c ∈ letters a, Text.isBlank c = true := by
  have hone : ∀ x : UInt8, (x = 9 ∨ (32 ≤ x ∧ x < 127)) → (Text.isBlank (Char.ofNat x.toNat) = true ↔ x = 32 ∨ x = 9) := by
    intro x hx
    simp only [Text.isBlank, toNat_letter, ← UInt8.toNat_inj, UInt8.le_iff_toNat_le, UInt8.lt_iff_toNat_lt, Bool.or_eq_true,
      Bool.and_eq_true, decide_eq_true_eq] at hx ⊢
    simp only [UInt8.reduceToNat] at hx ⊢
    omega
  simp only [IsBlanks, letters, List.forall_mem_map]
  exact ⟨fun hb x hx => (hone x (h x hx)).mpr (hb x hx), fun hb x hx => (hone x (h x hx)).mp (hb x hx)⟩

/-- The text of a line is there exactly if the line is legible. -/
theorem lineText?_eq (line : Bytes) : lineText? line = if Legible line then some (letters line) else none := by
  induction line with
  | nil => rfl
  | cons x line ih =>
    have hcons : lineText? (x :: line) = (printable? x).bind fun c => (lineText? line).map (c :: ·) := by
      simp only [lineText?, List.mapM_cons, Option.bind_eq_bind, Option.pure_def]
      cases List.mapM printable? line <;> rfl
    have hone : printable? x = if x = 9 ∨ (32 ≤ x ∧ x < 127) then some (Char.ofNat x.toNat) else none := by
      simp [printable?]
    rw [hcons, ih, hone]
    by_cases hx : x = 9 ∨ (32 ≤ x ∧ x < 127)
    · by_cases hline : Legible line
      · rw [if_pos hx, if_pos hline, if_pos (legible_cons.mpr ⟨hx, hline⟩)]
        rfl
      · rw [if_pos hx, if_neg hline, if_neg fun h => hline (legible_cons.mp h).2]
        rfl
    · rw [if_neg hx, if_neg fun h => hx (legible_cons.mp h).1]
      rfl

/-! ## The elements of a line -/

/-- A line that begins with an element goes on with the others behind a comma. -/
theorem joined_cons (e : Bytes) (h : es ≠ []) : joined (e :: es) = e ++ 44 :: joined es := by
  cases es with
  | nil => exact absurd rfl h
  | cons e' es => rfl

/-- A line is legible where its parts are. -/
theorem legible_joined : Legible (joined es) ↔ ∀ e ∈ es, Legible e := by
  induction es with
  | nil => simp [Legible, joined]
  | cons e es ih =>
    rw [List.forall_mem_cons, ← ih]
    by_cases hnone : es = []
    · simp [hnone, joined, Legible]
    · have hcomma : (44 : UInt8) = 9 ∨ ((32 : UInt8) ≤ 44 ∧ (44 : UInt8) < 127) := Or.inr (by decide)
      rw [joined_cons e hnone, legible_append, legible_cons, and_iff_right hcomma]

/-- A legible line is made of elements. -/
theorem exists_joined (h : Legible line) : ∃ es, es ≠ [] ∧ (∀ e ∈ es, IsElement e) ∧ joined es = line := by
  induction line with
  | nil => exact ⟨[[]], by simp, by simpa using ⟨by simp [Legible], by simp⟩, rfl⟩
  | cons x line ih =>
    obtain ⟨hx, hline⟩ := legible_cons.mp h
    obtain ⟨es, hne, hes, rfl⟩ := ih hline
    by_cases hcomma : x = 44
    · refine ⟨[] :: es, by simp, ?_, by rw [joined_cons [] hne, hcomma, List.nil_append]⟩
      simpa using ⟨⟨by simp [Legible], by simp⟩, hes⟩
    · -- the byte goes to the front of the first element
      obtain ⟨e, es, rfl⟩ := List.exists_cons_of_ne_nil hne
      obtain ⟨he, hes⟩ := List.forall_mem_cons.mp hes
      refine ⟨(x :: e) :: es, by simp, ?_, ?_⟩
      · refine List.forall_mem_cons.mpr ⟨⟨legible_cons.mpr ⟨hx, he.legible⟩, ?_⟩, hes⟩
        simpa using ⟨Ne.symm hcomma, he.whole⟩
      · by_cases hnone : es = []
        · rw [hnone, joined, joined]
        · rw [joined_cons _ hnone, joined_cons _ hnone, List.cons_append]

/-- Whether a line has an element whose text is such. -/
def lineHas (q : List Char → Bool) (line : Bytes) : Bool := (lineText? line).any fun cs => (Text.pieces ',' cs).any q

/-- Lines list such an element where one of them has it. -/
theorem any_elements (lines : List Bytes) (q : List Char → Bool) :
    (elements lines).any q = lines.any (lineHas fun p => q (Text.trim p)) := by
  rw [elements, List.any_map, List.any_flatMap, List.any_filterMap]
  refine congrArg (List.any lines) (funext fun line => ?_)
  rw [lineHas]
  cases lineText? line <;> rfl

variable {q : List Char → Bool}

/-- A line that is not legible has no element. -/
theorem lineHas_of_not_legible (h : ¬Legible line) : lineHas q line = false := by
  rw [lineHas, lineText?_eq, if_neg h]
  rfl

/-- A line of two parts has the elements of both. -/
theorem lineHas_append (ha : Legible a) (hb : Legible b) : lineHas q (a ++ 44 :: b) = (lineHas q a || lineHas q b) := by
  have hab : Legible (a ++ 44 :: b) := legible_append.mpr ⟨ha, legible_cons.mpr ⟨Or.inr (by decide), hb⟩⟩
  have hcomma : letters (a ++ 44 :: b) = letters a ++ ',' :: letters b := letters_append a (44 :: b)
  simp only [lineHas, lineText?_eq, if_pos ha, if_pos hb, if_pos hab, Option.any_some, hcomma, Text.pieces_append, List.any_append]

/-- An element alone is the one of its line. -/
theorem lineHas_element (h : IsElement e) : lineHas q e = q (letters e) := by
  have hwhole : ',' ∉ letters e := fun hmem => h.whole (mem_letters_iff.mp hmem)
  simp only [lineHas, lineText?_eq, if_pos h.legible, Option.any_some, Text.pieces_of_notMem hwhole, List.any_cons, List.any_nil,
    Bool.or_false]

/-- A line has what its parts have. -/
theorem lineHas_parts (hne : es ≠ []) (h : ∀ e ∈ es, Legible e) : lineHas q (joined es) = es.any (lineHas q) := by
  induction es with
  | nil => exact absurd rfl hne
  | cons e es ih =>
    obtain ⟨he, hes⟩ := List.forall_mem_cons.mp h
    by_cases hnone : es = []
    · rw [hnone, joined, List.any_cons, List.any_nil, Bool.or_false]
    · rw [joined_cons e hnone, lineHas_append he (legible_joined.mpr hes), ih hnone hes, List.any_cons]

/-- A line has the elements that it is made of. -/
theorem lineHas_joined (hne : es ≠ []) (h : ∀ e ∈ es, IsElement e) : lineHas q (joined es) = es.any fun e => q (letters e) := by
  rw [lineHas_parts hne fun e he => (h e he).legible, Bool.eq_iff_iff, List.any_eq_true, List.any_eq_true]
  exact exists_congr fun e => and_congr_right fun he => by rw [lineHas_element (h e he)]

/-- What lines list are the elements of those that are legible, without the blanks around them. -/
theorem any_elements_iff : (elements lines).any q = true ↔ Lists lines fun e => q (Text.trim (letters e)) = true := by
  rw [any_elements, List.any_eq_true]
  constructor
  · rintro ⟨line, hline, hhas⟩
    by_cases hlegible : Legible line
    · obtain ⟨es, hne, hes, rfl⟩ := exists_joined hlegible
      rw [lineHas_joined hne hes, List.any_eq_true] at hhas
      exact ⟨es, hne, hes, hline, hhas⟩
    · rw [lineHas_of_not_legible hlegible] at hhas
      cases hhas
  · rintro ⟨es, hne, hes, hline, hhas⟩
    exact ⟨joined es, hline, by rwa [lineHas_joined hne hes, List.any_eq_true]⟩

/-! ## Words -/

/-- Listing is a matter of the elements only. -/
theorem lists_congr {P Q : Bytes → Prop} (h : ∀ e, IsElement e → (P e ↔ Q e)) : Lists lines P ↔ Lists lines Q := by
  constructor
  · rintro ⟨es, hne, hes, hline, e, he, hp⟩
    exact ⟨es, hne, hes, hline, e, he, (h e (hes e he)).mp hp⟩
  · rintro ⟨es, hne, hes, hline, e, he, hq⟩
    exact ⟨es, hne, hes, hline, e, he, (h e (hes e he)).mpr hq⟩

/-- A legible text that is a word but for the case of letters has no blanks where that has no spaces and tabs. -/
theorem no_blanks_of_foldCase {t : Bytes} {word : List Char} (ht : Legible t)
    (h : Text.foldCase (letters t) = Text.foldCase word) (hword : ∀ c ∈ word, c ≠ ' ' ∧ c ≠ '\t') :
    ∀ c ∈ letters t, Text.isBlank c = false := by
  intro c hc
  obtain ⟨x, hx, rfl⟩ := List.mem_map.mp hc
  rw [← Bool.not_eq_true]
  intro hblank
  have hone : IsBlanks [x] := (isBlanks_iff (by simpa [Legible] using ht x hx)).mpr (by simpa [letters] using hblank)
  have hmem : (Char.ofNat x.toNat).toLower ∈ Text.foldCase word := h ▸ List.mem_map_of_mem hc
  obtain ⟨d, hd, heq⟩ := List.mem_map.mp hmem
  rcases hone x List.mem_cons_self with rfl | rfl
  · exact (hword d hd).1 ((Text.toLower_eq_iff (by decide)).mp heq)
  · exact (hword d hd).2 ((Text.toLower_eq_iff (by decide)).mp heq)

/-- Trimming legible bytes leaves a word, but for the case of letters, exactly if they are that word with spaces and tabs around it. -/
theorem trim_letters_iff {word : List Char} (h : Legible e) (hword : ∀ c ∈ word, c ≠ ' ' ∧ c ≠ '\t') :
    Text.foldCase (Text.trim (letters e)) = Text.foldCase word ↔
      ∃ lead t trail, e = lead ++ t ++ trail ∧ IsBlanks lead ∧ IsBlanks trail ∧ Text.foldCase (letters t) = Text.foldCase word := by
  constructor
  · intro heq
    obtain ⟨lead', trail', hsplit, hl, hr⟩ := Text.exists_blanks (letters e)
    obtain ⟨front, trail, rfl, hfront, rfl⟩ := List.map_eq_append_iff.mp hsplit
    obtain ⟨lead, t, rfl, rfl, ht⟩ := List.map_eq_append_iff.mp hfront
    obtain ⟨hlt, htrail⟩ := legible_append.mp h
    obtain ⟨hlead, -⟩ := legible_append.mp hlt
    refine ⟨lead, t, trail, rfl, (isBlanks_iff hlead).mpr hl, (isBlanks_iff htrail).mpr hr, ?_⟩
    rw [← heq]
    exact congrArg Text.foldCase ht
  · rintro ⟨lead, t, trail, rfl, hl, hr, heq⟩
    have ht : Legible t := (legible_append.mp (legible_append.mp h).1).2
    rw [letters_append, letters_append, Text.trim_append _ ((isBlanks_iff hl.legible).mp hl) ((isBlanks_iff hr.legible).mp hr),
      Text.trim_of_no_blanks (no_blanks_of_foldCase ht heq hword), heq]

/-- A word without spaces and tabs is listed exactly if an element of a legible line is that word. -/
theorem listsWord_iff {word : String} (hword : ∀ c ∈ word.toList, c ≠ ' ' ∧ c ≠ '\t') :
    listsWord lines word = true ↔ Lists lines (IsWord word) := by
  rw [listsWord, any_elements_iff]
  refine lists_congr fun e he => ?_
  rw [Text.sameFold, beq_iff_eq, eq_comm]
  exact trim_letters_iff he.legible hword

end JobPlane.Http
