import JobPlane.Log.Transcript
import JobPlane.Proofs.Json.Record
import Mathlib.Data.List.Infix

/-!
# The records of a log

A log of events as a sequence of records. A record is read back from its bytes whatever follows them (`Record.read_bytes`), so the bytes
of a log are those of one sequence of records only (`records_unique`), whatever texts are in it, and this sequence is read back from them
(`Record.readAll_bytes`). Where records were cut off in the middle the bytes of the record that ends a complete log do not come about by
accident (`Unmarked.no_marker`).
-/

namespace JobPlane.Log

/-- A record of a log. -/
inductive Record
  /-- A piece of a stream. -/
  | piece (name text : String)
  /-- The log is complete. -/
  | complete
  deriving DecidableEq

namespace Record

/-- The object of a record that carries a piece of a stream. -/
def object (name text : String) : String :=
  Json.writeObject [("stream", Json.writeString name), ("data", Json.writeString text)]

/-- The bytes of a record. -/
def bytes : Record → Bytes
  | piece name text => Bytes.ofText "data: " ++ Bytes.ofText (object name text) ++ Bytes.ofText "\n\n"
  | complete => endMarker

/-- Reads a record off the front. -/
def read (bs : Bytes) : Option (Record × Bytes) :=
  match skip endMarker bs with
  | some rest => some (complete, rest)
  | none => (readRecord bs).map fun ((name, text), rest) => (piece name text, rest)

end Record

/-- What is written for a chunk is a record with the chunk's text. -/
theorem flatten_recordPieces (name : String) (chunk : Bytes) :
    (recordPieces name chunk).flatten = (Record.piece name (Utf8.lossy chunk)).bytes := by
  simp [recordPieces, Record.bytes, record, Record.object]

/-! ## Reading records back -/

/-- What a lead begins, without the lead. -/
theorem skip_append (lead rest : Bytes) : skip lead (lead ++ rest) = some rest := by
  have hpre : lead.isPrefixOf (lead ++ rest) = true := List.isPrefixOf_iff_prefix.mpr (List.prefix_append lead rest)
  simp [skip, hpre]

/-- The bytes of an object: the two members with their keys, between braces. -/
theorem ofText_object (name text : String) :
    Bytes.ofText (Record.object name text) =
      0x7B :: (Bytes.ofText (Json.writeString "stream") ++ (0x3A :: (Bytes.ofText (Json.writeString name) ++
        (0x2C :: (Bytes.ofText (Json.writeString "data") ++ (0x3A :: (Bytes.ofText (Json.writeString text) ++ [0x7D]))))))) := by
  simp [Record.object, Json.ofText_writeObject, Json.listed, Json.member]

/-- The object of a record is read back. -/
theorem readRecord_object (name text : String) (rest : Bytes) :
    Json.readRecord recordFields ("", "") (Bytes.ofText (Record.object name text) ++ rest) = .ok ((name, text), rest) := by
  refine Json.readRecord_writeObject (by decide) ?_ rest
  exact .value Json.readsBack_string (.value Json.readsBack_string (.nil (name, text)))

namespace Record

/-- The bytes of a record are not empty. -/
theorem bytes_ne_nil (r : Record) : r.bytes ≠ [] := by
  cases r with
  | piece name text =>
    have hlead : Bytes.ofText "data: " = [0x64, 0x61, 0x74, 0x61, 0x3A, 0x20] := by decide
    simp [bytes, hlead]
  | complete => decide

/-- A record is read back, and what follows it is left. -/
theorem read_bytes (r : Record) (rest : Bytes) : read (r.bytes ++ rest) = some (r, rest) := by
  cases r with
  | piece name text =>
    have hlead : Bytes.ofText "data: " = [0x64, 0x61, 0x74, 0x61, 0x3A, 0x20] := by decide
    have hmarker : endMarker = 0x65 :: endMarker.tail := by decide
    have hother : skip endMarker ((piece name text).bytes ++ rest) = none := by
      rw [hmarker]
      simp [skip, bytes, hlead]
    have hrecord : readRecord ((piece name text).bytes ++ rest) = some ((name, text), rest) := by
      rw [bytes, List.append_assoc, List.append_assoc]
      simp only [readRecord, skip_append, Option.bind_eq_bind, Option.bind_some, readRecord_object, Except.toOption]
    simp [read, hother, hrecord]
  | complete =>
    simp [read, bytes, skip_append]

end Record

/-- The bytes of a log are those of one sequence of records only. -/
theorem records_unique {rs rs' : List Record} (h : rs.flatMap Record.bytes = rs'.flatMap Record.bytes) : rs = rs' := by
  induction rs generalizing rs' with
  | nil =>
    cases rs' with
    | nil => rfl
    | cons r' rs' => simp [Record.bytes_ne_nil] at h
  | cons r rs ih =>
    cases rs' with
    | nil => simp [Record.bytes_ne_nil] at h
    | cons r' rs' =>
      have hread := Record.read_bytes r (rs.flatMap Record.bytes)
      rw [List.flatMap_cons, List.flatMap_cons] at h
      rw [h, Record.read_bytes, Option.some.injEq, Prod.mk.injEq] at hread
      obtain ⟨rfl, hrest⟩ := hread
      rw [ih hrest.symm]

/-- Reads records to the end. `fuel` bounds their number. -/
def Record.readAll : Nat → Bytes → Option (List Record)
  | _, [] => some []
  | 0, _ => none
  | fuel + 1, bs => (Record.read bs).bind fun (r, rest) => (Record.readAll fuel rest).map (r :: ·)

/-- Records are read back. -/
theorem Record.readAll_bytes {rs : List Record} {fuel : Nat} (hfuel : (rs.flatMap Record.bytes).length ≤ fuel) :
    Record.readAll fuel (rs.flatMap Record.bytes) = some rs := by
  induction rs generalizing fuel with
  | nil => cases fuel <;> rfl
  | cons r rs ih =>
    have hpos : 0 < r.bytes.length := List.length_pos_iff.mpr r.bytes_ne_nil
    rw [List.flatMap_cons, List.length_append] at hfuel
    obtain ⟨fuel, rfl⟩ : ∃ n, fuel = n + 1 := ⟨fuel - 1, by omega⟩
    have hne : (r :: rs).flatMap Record.bytes ≠ [] := by simp [r.bytes_ne_nil]
    have hread : Record.read ((r :: rs).flatMap Record.bytes) = some (r, rs.flatMap Record.bytes) := Record.read_bytes r _
    have hrest : Record.readAll fuel (rs.flatMap Record.bytes) = some rs := ih (by omega)
    rw [Record.readAll, hread, Option.bind_some]
    · exact congrArg (Option.map (r :: ·)) hrest
    · exact hne

/-! ## Records that were cut off -/

/-- Every line break comes right after a brace or another line break, as it does in records and in the beginning of one. -/
def Torn (xs : Bytes) : Prop := ∀ a b, xs = a ++ 0x0A :: b → ∃ a' x, a = a' ++ [x] ∧ (x = 0x7D ∨ x = 0x0A)

namespace Torn

variable {xs ys : Bytes}

theorem nil : Torn [] := by
  intro a b h
  simp at h

/-- Bytes without a line break. -/
theorem of_notMem (h : 0x0A ∉ xs) : Torn xs := by
  rintro a b rfl
  simp at h

/-- Bytes behind others. -/
theorem append (hx : Torn xs) (hy : Torn ys) : Torn (xs ++ ys) := by
  intro a b h
  rcases List.append_eq_append_iff.mp h with ⟨c, rfl, hc⟩ | ⟨c, rfl, hc⟩
  · -- the line break is in the second part
    obtain ⟨a', x, rfl, hx⟩ := hy c b hc
    exact ⟨xs ++ a', x, by simp, hx⟩
  · cases c with
    | nil =>
      obtain ⟨a', x, ha, -⟩ := hy [] b (by simpa using hc.symm)
      simp at ha
    | cons x c =>
      obtain ⟨rfl, -⟩ := List.cons.inj hc
      exact hx a c rfl

/-- A line break behind bytes that end in a brace or a line break. -/
theorem concat (hx : Torn (xs ++ [x])) (h : x = 0x7D ∨ x = 0x0A) : Torn (xs ++ [x] ++ [0x0A]) := by
  intro a b hab
  rcases List.append_eq_append_iff.mp hab with ⟨c, rfl, hc⟩ | ⟨c, hxs, hc⟩
  · cases c with
    | nil => exact ⟨xs, x, by simp, h⟩
    | cons y c => simp at hc
  · cases c with
    | nil =>
      rw [List.append_nil] at hxs
      exact ⟨xs, x, hxs.symm, h⟩
    | cons y c =>
      obtain ⟨rfl, -⟩ := List.cons.inj hc
      exact hx a c hxs

/-- The beginning of such bytes. -/
theorem of_append (h : Torn (xs ++ ys)) : Torn xs := by
  rintro a b rfl
  exact h a (b ++ ys) (by simp)

end Torn

namespace Record

/-- An object is closed by a brace and has no line break in it. -/
theorem object_closed (name text : String) :
    ∃ body, Bytes.ofText (object name text) = body ++ [0x7D] ∧ (0x0A : UInt8) ∉ body := by
  refine ⟨0x7B :: (Bytes.ofText (Json.writeString "stream") ++ (0x3A :: (Bytes.ofText (Json.writeString name) ++
    (0x2C :: (Bytes.ofText (Json.writeString "data") ++ (0x3A :: Bytes.ofText (Json.writeString text))))))), ?_, ?_⟩
  · simp [ofText_object]
  · simp [Json.line_break_notMem_writeString]

/-- The line breaks of a record that carries a piece are those of the blank line, which follow the object's brace. -/
theorem torn_piece (name text : String) : Torn (piece name text).bytes := by
  obtain ⟨body, hobject, hbody⟩ := object_closed name text
  have hlead : (0x0A : UInt8) ∉ Bytes.ofText "data: " := by decide
  have hblank : Bytes.ofText "\n\n" = [0x0A] ++ [0x0A] := by decide
  have hline : Torn (Bytes.ofText "data: " ++ body ++ [0x7D]) := Torn.of_notMem (by simp [hlead, hbody])
  have hbytes : (piece name text).bytes = Bytes.ofText "data: " ++ body ++ [0x7D] ++ [0x0A] ++ [0x0A] := by
    rw [bytes, hobject, hblank]
    simp
  rw [hbytes]
  exact (hline.concat (Or.inl rfl)).concat (Or.inr rfl)

end Record

/-- The bytes of records that carry pieces. -/
theorem torn_of_pieces {rs : List Record} (h : ∀ r ∈ rs, r ≠ .complete) : Torn (rs.flatMap Record.bytes) := by
  induction rs with
  | nil => exact Torn.nil
  | cons r rs ih =>
    have hr := h r List.mem_cons_self
    cases r with
    | piece name text => exact (Record.torn_piece name text).append (ih fun r' hr' => h r' (List.mem_cons_of_mem _ hr'))
    | complete => exact absurd rfl hr

/-- Such bytes end before the first line break of an end marker in them, which follows the letter `f`. -/
theorem Torn.length_le_of_marker {xs a b : Bytes} (hx : Torn xs) (h : xs <+: a ++ endMarker ++ b) : xs.length ≤ a.length + 10 := by
  obtain ⟨lead, tail, hmarker, hnine⟩ : ∃ lead tail, endMarker = lead ++ [0x66] ++ 0x0A :: tail ∧ lead.length = 9 :=
    ⟨endMarker.take 9, endMarker.drop 11, by decide, by decide⟩
  by_contra hlong
  have hmore : a ++ lead ++ [0x66] ++ [0x0A] <+: xs := by
    refine List.prefix_of_prefix_length_le ?_ h (by simp [hnine]; omega)
    rw [hmarker]
    exact ⟨tail ++ b, by simp⟩
  obtain ⟨rest, hrest⟩ := hmore
  obtain ⟨a', x, ha, hx'⟩ := hx (a ++ lead ++ [0x66]) rest (by simp [← hrest])
  obtain ⟨-, hlast⟩ := List.append_inj' ha rfl
  cases hlast
  simp at hx'

/-- Bytes in which no log is declared complete: line breaks come where they do in other records, up to a part of an end marker at the
end. -/
def Unmarked (xs : Bytes) : Prop := ∃ ys p, xs = ys ++ p ∧ Torn ys ∧ p <+: endMarker ∧ p ≠ endMarker

/-- Bytes with nothing of an end marker. -/
theorem Torn.unmarked {xs : Bytes} (h : Torn xs) : Unmarked xs := ⟨xs, [], by simp, h, List.nil_prefix, by decide⟩

/-- The end marker does not come about in such bytes. -/
theorem Unmarked.no_marker {xs : Bytes} (hx : Unmarked xs) : ¬ endMarker <:+: xs := by
  rintro ⟨a, b, h⟩
  obtain ⟨ys, p, rfl, hys, hp, hne⟩ := hx
  have hlength : endMarker.length = 21 := by decide
  have hshort : p.length < 21 := by
    rcases Nat.lt_or_ge p.length 21 with hlt | hge
    · exact hlt
    · exact absurd (hp.eq_of_length_le (by omega)) hne
  -- the part of the marker before its first line break can be counted to the bytes before it
  have hten : Torn (p.take 10) := by
    refine Torn.of_notMem fun hmem => ?_
    have hfirst : (0x0A : UInt8) ∉ endMarker.take 10 := by decide
    exact hfirst ((List.IsPrefix.take hp 10).subset hmem)
  have hle := (hys.append hten).length_le_of_marker (a := a) (b := b)
    (by rw [h]; exact (List.prefix_append_right_inj ys).mpr (List.take_prefix 10 p))
  have hall := congrArg List.length h
  simp only [List.length_append, List.length_take, hlength] at hle hall
  omega

/-- Behind other records nothing follows the end marker. -/
theorem eq_nil_of_marker {xs a b : Bytes} (hx : Torn xs) (h : xs ++ endMarker = a ++ endMarker ++ b) : b = [] := by
  rcases List.eq_nil_or_concat b with hb | ⟨b', y, rfl⟩
  · exact hb
  · obtain ⟨part, z, hmarker, hne⟩ : ∃ part z, endMarker = part ++ [z] ∧ part ≠ endMarker :=
      ⟨endMarker.take 20, 0x0A, by decide, by decide⟩
    have hpart : part <+: endMarker := ⟨[z], hmarker.symm⟩
    have hall : xs ++ part ++ [z] = a ++ endMarker ++ b' ++ [y] := by
      rw [List.append_assoc xs, ← hmarker, h]
      simp
    have hshort := (List.append_inj' hall rfl).1
    exact absurd ⟨a, b', hshort.symm⟩ (Unmarked.no_marker ⟨xs, part, rfl, hx, hpart, hne⟩)

end JobPlane.Log
