import JobPlane.Catalog
import JobPlane.Job.Record
import JobPlane.Proofs.Json.Text

/-!
# Values as JSON and back

Truth values, numbers, lists of texts and maps from text to text are read back from what is written for them, and what follows them is
left (`ReadsBack`). What may follow a value inside a text is a comma or a closing bracket, which matters for numbers: they have no end of
their own.
-/

namespace JobPlane.Json

/-- What may follow a value: nothing, a comma, or a bracket that closes. -/
def Closed (rest : Bytes) : Prop := ∀ b ∈ rest.head?, b = 0x2C ∨ b = 0x5D ∨ b = 0x7D

theorem closed_nil : Closed [] := by
  intro b hb
  cases hb

theorem closed_comma (rest : Bytes) : Closed (0x2C :: rest) := by
  rintro b ⟨⟩
  exact Or.inl rfl

theorem closed_brace (rest : Bytes) : Closed (0x7D :: rest) := by
  rintro b ⟨⟩
  exact Or.inr (Or.inr rfl)

/-- Every value is read back from what is written for it, and what follows it is left. -/
def ReadsBack {α : Type} (read : Reader α) (write : α → String) : Prop :=
  ∀ a rest, Closed rest → read (Bytes.ofText (write a) ++ rest) = .ok (a, rest)

/-- The JSON that is written for what is read from JSON. -/
def rewritten {α : Type} (read : Reader α) (write : α → String) (bs : Bytes) : Except Fault Bytes :=
  (readAll read bs).map fun a => Bytes.ofText (write a)

namespace ReadsBack

variable {α : Type} {read : Reader α} {write : α → String}

/-- A value alone is read back. -/
theorem readAll (h : ReadsBack read write) (a : α) : readAll read (Bytes.ofText (write a)) = .ok a := by
  have hread := h a [] closed_nil
  rw [List.append_nil] at hread
  simp only [Json.readAll, hread, bind, Except.bind]
  rfl

/-- JSON that is read and written is read as the same value after that, and written as it is. -/
theorem again (h : ReadsBack read write) {bs bs' : Bytes} (hbs : rewritten read write bs = .ok bs') :
    Json.readAll read bs' = Json.readAll read bs ∧ Json.rewritten read write bs' = .ok bs' := by
  unfold Json.rewritten at hbs ⊢
  cases hread : Json.readAll read bs with
  | error f =>
    rw [hread] at hbs
    cases hbs
  | ok a =>
    rw [hread] at hbs
    obtain rfl : Bytes.ofText (write a) = bs' := Except.ok.inj hbs
    rw [h.readAll a]
    exact ⟨rfl, rfl⟩

end ReadsBack

/-- Texts are read back. -/
theorem readsBack_string : ReadsBack readString writeString := fun s rest _ => readString_writeString s rest

/-- Truth values are read back. -/
theorem readsBack_bool : ReadsBack readBool writeBool := by
  intro b rest _
  have htrue : Bytes.ofText "true" = [0x74, 0x72, 0x75, 0x65] := by decide
  have hfalse : Bytes.ofText "false" = [0x66, 0x61, 0x6C, 0x73, 0x65] := by decide
  cases b
  · rw [show writeBool false = "false" from rfl, hfalse]
    rfl
  · rw [show writeBool true = "true" from rfl, htrue]
    rfl

/-- A value that is there and does not begin like `null` is read as one that is there. -/
theorem readOption_some {α : Type} {read : Reader α} {a : α} {b : UInt8} {bs rest : Bytes} (hblank : isBlank b = false)
    (hnull : b ≠ 0x6E) (h : read (b :: bs) = .ok (a, rest)) : readOption read (b :: bs) = .ok (some a, rest) := by
  have hskip : skipBlanks (b :: bs) = b :: bs := by simp [skipBlanks, hblank]
  unfold readOption
  rw [hskip]
  split
  · rename_i heq
    exact absurd (List.cons.inj heq).1 hnull
  · rw [h]
    rfl

/-- A text that is there is read as one that is there. -/
theorem readOption_writeString (s : String) (rest : Bytes) :
    readOption readString (Bytes.ofText (writeString s) ++ rest) = .ok (some s, rest) := by
  have hread := readString_writeString s rest
  rw [ofText_writeString] at hread ⊢
  exact readOption_some (by decide) (by decide) hread

/-- Texts that may be missing are read back. -/
theorem readsBack_option : ReadsBack (readOption readString) writeOption := by
  intro s rest _
  cases s with
  | none =>
    have hnull : Bytes.ofText "null" = [0x6E, 0x75, 0x6C, 0x6C] := by decide
    rw [show writeOption none = "null" from rfl, hnull]
    rfl
  | some s => exact readOption_writeString s rest

/-! ## Numbers -/

/-- The number that digits spell, after those before. -/
def spelled (n : Nat) (ds : Bytes) : Nat := ds.foldl (fun n b => n * 10 + digitValue b) n

/-- More digits spell no smaller number. -/
theorem le_spelled (n : Nat) (ds : Bytes) : n ≤ spelled n ds := by
  induction ds generalizing n with
  | nil => exact Nat.le_refl n
  | cons b ds ih =>
    have hrest := ih (n * 10 + digitValue b)
    simp only [spelled, List.foldl_cons] at hrest ⊢
    omega

/-- Digits are taken as long as they spell a number below 2⁶⁴. -/
theorem takeDigits_append {ds : Bytes} (hd : ∀ b ∈ ds, isDigit b = true) (n taken : Nat) (hlt : spelled n ds < Nat.pow 2 64)
    (rest : Bytes) : takeDigits n taken (ds ++ rest) = takeDigits (spelled n ds) (taken + ds.length) rest := by
  induction ds generalizing n taken with
  | nil => rfl
  | cons b ds ih =>
    have hspelled : spelled n (b :: ds) = spelled (n * 10 + digitValue b) ds := rfl
    rw [hspelled] at hlt ⊢
    have hnext : n * 10 + digitValue b < Nat.pow 2 64 := Nat.lt_of_le_of_lt (le_spelled _ _) hlt
    have hdigit := hd b List.mem_cons_self
    rw [List.cons_append, takeDigits, if_pos (by simp [hdigit, hnext]), ih (fun c hc => hd c (List.mem_cons_of_mem b hc)) _ _ hlt,
      List.length_cons]
    congr 1
    omega

/-- What follows a value is no digit. -/
theorem isDigit_of_closed {b : UInt8} {rest : Bytes} (h : Closed (b :: rest)) : isDigit b = false := by
  rcases h b rfl with rfl | rfl | rfl <;> decide

/-- The digits of a number: they spell it, and the first of them is zero only for the number zero, of which it is the only one. -/
theorem digits_toString (n : Nat) :
    ∃ b ds, Bytes.ofText (toString n) = b :: ds ∧ (∀ d ∈ b :: ds, isDigit d = true) ∧ spelled 0 (b :: ds) = n ∧
      (b = 0x30 → n = 0 ∧ ds = []) := by
  have hchars : (toString n).toList = Nat.toDigits 10 n := Nat.toList_repr
  rw [Bytes.ofText, hchars]
  -- the last digit comes after those of the tenth part
  induction n using Nat.strongRecOn with
  | ind n ih =>
    have hone : ∀ d, d < 10 → Bytes.ofChars [d.digitChar] = [UInt8.ofNat (0x30 + d)] ∧
        isDigit (UInt8.ofNat (0x30 + d)) = true ∧ digitValue (UInt8.ofNat (0x30 + d)) = d ∧
        (UInt8.ofNat (0x30 + d) = 0x30 → d = 0) := by
      decide
    rw [Nat.toDigits_eq_if (by decide)]
    split
    · rename_i hshort
      obtain ⟨hbytes, hdigit, hvalue, hzero⟩ := hone n hshort
      refine ⟨UInt8.ofNat (0x30 + n), [], hbytes, fun d hd => ?_, ?_, fun h => ⟨hzero h, rfl⟩⟩
      · rw [List.mem_singleton.mp hd]
        exact hdigit
      · rw [spelled, List.foldl_cons, List.foldl_nil, hvalue]
        omega
    · rename_i hlong
      obtain ⟨b, ds, hbytes, hdigits, hspelled, hzero⟩ := ih (n / 10) (by omega) Nat.toList_repr
      obtain ⟨hlast, hdigit, hvalue, -⟩ := hone (n % 10) (by omega)
      refine ⟨b, ds ++ [UInt8.ofNat (0x30 + n % 10)], ?_, ?_, ?_, fun h => ?_⟩
      · rw [Bytes.ofChars_append, hbytes, hlast, List.cons_append]
      · intro d hd
        rw [← List.cons_append, List.mem_append, List.mem_singleton] at hd
        rcases hd with hd | rfl
        · exact hdigits d hd
        · exact hdigit
      · have hsteps : spelled 0 (b :: ds ++ [UInt8.ofNat (0x30 + n % 10)]) =
            spelled 0 (b :: ds) * 10 + digitValue (UInt8.ofNat (0x30 + n % 10)) := by
          simp [spelled]
        rw [← List.cons_append, hsteps, hspelled, hvalue]
        omega
      · obtain ⟨hnone, -⟩ := hzero h
        omega

/-- A number is read back. -/
theorem readNatural_toString {n bound : Nat} (hn : n < bound) (hbound : bound ≤ Nat.pow 2 64) {rest : Bytes} (hrest : Closed rest) :
    readNatural bound (Bytes.ofText (toString n) ++ rest) = .ok (n, rest) := by
  obtain ⟨b, ds, hbytes, hdigits, hspelled, hzero⟩ := digits_toString n
  have hb := hdigits b List.mem_cons_self
  have hblank : isBlank b = false := by
    have hrange : 0x30 ≤ b.toNat := by
      simp only [isDigit, Bool.and_eq_true, decide_eq_true_eq, UInt8.le_iff_toNat_le] at hb
      exact hb.1
    simp only [isBlank, Bool.or_eq_false_iff, decide_eq_false_iff_not, ← UInt8.toNat_inj]
    simp only [UInt8.reduceToNat]
    omega
  have hskip : skipBlanks (b :: (ds ++ rest)) = b :: (ds ++ rest) := by simp [skipBlanks, hblank]
  -- a zero is followed by no digit
  have hlead : (b = 0x30 && isDigit ((ds ++ rest).headD 0)) = false := by
    by_cases hfirst : b = 0x30
    · obtain ⟨-, rfl⟩ := hzero hfirst
      cases rest with
      | nil => simp [isDigit]
      | cons c rest => simp [isDigit_of_closed hrest]
    · simp [hfirst]
  have htake : takeDigits 0 0 (b :: (ds ++ rest)) = (n, ds.length + 1, rest) := by
    rw [← List.cons_append, takeDigits_append hdigits 0 0 (by rw [hspelled]; omega), hspelled]
    cases rest with
    | nil => simp [takeDigits]
    | cons c rest => simp [takeDigits, isDigit_of_closed hrest]
  have hnumber : readNumber false (b :: (ds ++ rest)) = .ok (.natural n, rest) := by
    simp only [readNumber, hb, Bool.not_true, Bool.false_eq_true, if_false, hlead, htake]
    cases rest with
    | nil => rfl
    | cons c rest =>
      rcases hrest c rfl with rfl | rfl | rfl <;> rfl
  rw [hbytes, List.cons_append]
  simp only [readNatural, hskip, hb, if_true, hnumber, hn]

/-- Numbers of 16 bits are read back. -/
theorem readsBack_uint16 : ReadsBack readUInt16 fun n => toString n.toNat := by
  intro n rest hrest
  simp only [readUInt16]
  rw [readNatural_toString n.toNat_lt (by decide) hrest]
  simp [Except.map]

/-! ## What is listed -/

/-- Parts one after another, with a comma before each but the first of all. -/
def listed : Bool → List Bytes → Bytes
  | _, [] => []
  | true, a :: as => a ++ listed false as
  | false, a :: as => 0x2C :: (a ++ listed false as)

/-- The bytes of items joined by commas. -/
theorem ofText_commaJoin (items : List String) : Bytes.ofText (commaJoin items) = listed true (items.map Bytes.ofText) := by
  have hcomma : Bytes.ofText "," = [0x2C] := by decide
  have hmore (a : String) (as : List String) : Bytes.ofText (commaJoin (a :: as)) =
      Bytes.ofText a ++ listed false (as.map Bytes.ofText) := by
    induction as generalizing a with
    | nil => simp [commaJoin, listed]
    | cons b as ih =>
      have hjoin : commaJoin (a :: b :: as) = a ++ "," ++ commaJoin (b :: as) := String.intercalate_cons_cons
      rw [hjoin, Bytes.ofText_append, Bytes.ofText_append, hcomma, ih b]
      simp [listed]
  cases items with
  | nil => rfl
  | cons a as => exact hmore a as

/-- Parts that are not empty are no more than their bytes. -/
theorem length_le_listed (first : Bool) {parts : List Bytes} (h : ∀ p ∈ parts, p ≠ []) :
    parts.length ≤ (listed first parts).length := by
  induction parts generalizing first with
  | nil => exact Nat.zero_le _
  | cons p parts ih =>
    have hp : 0 < p.length := List.length_pos_iff.mpr (h p List.mem_cons_self)
    have hrest := ih false fun q hq => h q (List.mem_cons_of_mem p hq)
    cases first <;> simp only [listed, List.length_cons, List.length_append] <;> omega

/-- A value in a list is followed by a comma, or by the bracket that closes the list. -/
theorem closed_listed (parts : List Bytes) {rest : Bytes} (h : Closed rest) : Closed (listed false parts ++ rest) := by
  cases parts with
  | nil => exact h
  | cons p parts => exact closed_comma _

/-! ## Lists of texts -/

/-- The next text of a list begins where it is written. -/
theorem nextItem_writeString (first : Bool) (s : String) (parts : List Bytes) (rest : Bytes) :
    nextItem first (listed first (Bytes.ofText (writeString s) :: parts) ++ rest) =
      .ok (some (Bytes.ofText (writeString s) ++ (listed false parts ++ rest))) := by
  cases first
  all_goals
    rw [listed, ofText_writeString]
    simp only [List.cons_append, List.append_assoc]
    rfl

/-- The texts of a list are read back, after those before them. -/
theorem readItems_listed {fuel : Nat} {first : Bool} {before ss : List String} (hfuel : ss.length < fuel) (rest : Bytes) :
    readItems readString fuel first before (listed first (ss.map fun s => Bytes.ofText (writeString s)) ++ 0x5D :: rest) =
      .ok (before.reverse ++ ss, rest) := by
  induction ss generalizing fuel first before with
  | nil =>
    obtain ⟨fuel, rfl⟩ : ∃ n, fuel = n + 1 := ⟨fuel - 1, by simp only [List.length_nil] at hfuel; omega⟩
    have hnext : nextItem first (0x5D :: rest) = .ok none := rfl
    have hclose : closeArray (0x5D :: rest) = .ok rest := rfl
    simp only [List.map_nil, listed, List.nil_append, readItems, hnext, hclose, bind, Except.bind, List.append_nil]
    rfl
  | cons s ss ih =>
    rw [List.length_cons] at hfuel
    obtain ⟨fuel, rfl⟩ : ∃ n, fuel = n + 1 := ⟨fuel - 1, by omega⟩
    rw [List.map_cons]
    simp only [readItems, nextItem_writeString, readString_writeString, bind, Except.bind]
    rw [ih (by omega)]
    simp

/-- The bytes of a list of texts. -/
theorem ofText_writeStrings (ss : List String) :
    Bytes.ofText (writeStrings ss) = 0x5B :: (listed true (ss.map fun s => Bytes.ofText (writeString s)) ++ [0x5D]) := by
  have hopen : Bytes.ofText "[" = [0x5B] := by decide
  have hclose : Bytes.ofText "]" = [0x5D] := by decide
  rw [writeStrings, writeArray, Bytes.ofText_append, Bytes.ofText_append, hopen, hclose, ofText_commaJoin, List.map_map]
  simp only [Function.comp_def, List.cons_append, List.nil_append]

/-- A list is read from behind its opening bracket. -/
theorem readList_bracket {α : Type} (read : Reader α) (rest : Bytes) :
    readList read (0x5B :: rest) = readItems read (rest.length + 1) true [] rest := rfl

/-- Lists of texts are read back. -/
theorem readsBack_strings : ReadsBack readStrings writeStrings := by
  intro ss rest _
  have hparts : ss.length ≤ (listed true (ss.map fun s => Bytes.ofText (writeString s))).length := by
    have hne : ∀ p ∈ ss.map fun s => Bytes.ofText (writeString s), p ≠ [] := by
      intro p hp
      obtain ⟨s, -, rfl⟩ := List.mem_map.mp hp
      simp [ofText_writeString]
    have h := length_le_listed true hne
    rwa [List.length_map] at h
  rw [ofText_writeStrings, List.cons_append, List.append_assoc, List.singleton_append, readStrings, readList_bracket]
  refine readItems_listed ?_ rest
  rw [List.length_append, List.length_cons]
  omega

/-- A list of texts that is there is read as one that is there. -/
theorem readOption_writeStrings (ss : List String) (rest : Bytes) (hclosed : Closed rest) :
    readOption readStrings (Bytes.ofText (writeStrings ss) ++ rest) = .ok (some ss, rest) := by
  have hread := readsBack_strings ss rest hclosed
  rw [ofText_writeStrings] at hread ⊢
  exact readOption_some (by decide) (by decide) hread

end JobPlane.Json
