import JobPlane.Proofs.Json.Value
import JobPlane.Proofs.TextMap

/-!
# Records as JSON and back

A record is written as an object whose members are fields of it in the order they are declared, of which some may be left out. Where each
member carries what its field reads back, the whole record is read back (`readRecord_writeObject`): no key comes twice, every key is that
of its field, and no field that has to be there is missing. Maps are read back as objects whose members are all of one shape.
-/

namespace JobPlane.Json

/-! ## Members -/

/-- A member as it is written. -/
def member (m : String × String) : Bytes := Bytes.ofText (writeString m.1) ++ 0x3A :: Bytes.ofText m.2

/-- The bytes of an object. -/
theorem ofText_writeObject (ms : List (String × String)) :
    Bytes.ofText (writeObject ms) = 0x7B :: (listed true (ms.map member) ++ [0x7D]) := by
  have hopen : Bytes.ofText "\x7b" = [0x7B] := by decide
  have hclose : Bytes.ofText "\x7d" = [0x7D] := by decide
  have hcolon : Bytes.ofText ":" = [0x3A] := by decide
  have hmember (m : String × String) : Bytes.ofText (writeString m.1 ++ ":" ++ m.2) = member m := by
    simp [member, hcolon]
  rw [writeObject, Bytes.ofText_append, Bytes.ofText_append, hopen, hclose, ofText_commaJoin, List.map_map]
  simp only [Function.comp_def, hmember]
  rfl

/-- The members of an object are no more than its bytes. -/
theorem length_le_members (ms : List (String × String)) : ms.length ≤ (listed true (ms.map member)).length := by
  have hne : ∀ p ∈ ms.map member, p ≠ [] := by
    intro p hp
    obtain ⟨m, -, rfl⟩ := List.mem_map.mp hp
    simp [member, ofText_writeString]
  have h := length_le_listed true hne
  rwa [List.length_map] at h

/-- The next member of an object, from behind the opening quote of its key. -/
theorem nextKey_member (first : Bool) (m : String × String) (parts : List Bytes) (rest : Bytes) :
    nextKey first (listed first (member m :: parts) ++ rest) =
      .ok (some (Bytes.ofChars (m.1.toList.flatMap escapeChar) ++
        0x22 :: 0x3A :: (Bytes.ofText m.2 ++ (listed false parts ++ rest)))) := by
  cases first
  all_goals
    rw [listed, member, ofText_writeString]
    simp only [List.cons_append, List.append_assoc, List.nil_append]
    rfl

/-- The key of a member is read back up to its colon. -/
theorem readStringFrom_key (key : String) (rest : Bytes) :
    readStringFrom [] (Bytes.ofChars (key.toList.flatMap escapeChar) ++ 0x22 :: rest) = .ok (key.toList, rest) := by
  have h := readStringFrom_escaped key.toList [] rest
  rwa [Bytes.ofChars_nil, List.reverse_nil, List.nil_append] at h

/-- The colon behind a key. -/
theorem readColon_colon (rest : Bytes) : readColon (0x3A :: rest) = .ok rest := rfl

/-- Behind the last member there is no other. -/
theorem nextKey_brace (first : Bool) (rest : Bytes) : nextKey first (0x7D :: rest) = .ok none := rfl

/-- The brace that closes an object. -/
theorem closeObject_brace (rest : Bytes) : closeObject (0x7D :: rest) = .ok rest := rfl

/-! ## Maps -/

/-- The members of an object of texts are read back, after those before them. -/
theorem readMembers_listed {fuel : Nat} {first : Bool} {before es : List (String × String)} (hfuel : es.length < fuel) (rest : Bytes) :
    readMembers readString fuel first before (listed first (es.map fun e => member (e.1, writeString e.2)) ++ 0x7D :: rest) =
      .ok (before.reverse ++ es, rest) := by
  induction es generalizing fuel first before with
  | nil =>
    obtain ⟨fuel, rfl⟩ : ∃ n, fuel = n + 1 := ⟨fuel - 1, by simp only [List.length_nil] at hfuel; omega⟩
    simp only [List.map_nil, listed, List.nil_append, readMembers, nextKey_brace, closeObject_brace, bind, Except.bind, List.append_nil]
    rfl
  | cons e es ih =>
    rw [List.length_cons] at hfuel
    obtain ⟨fuel, rfl⟩ : ∃ n, fuel = n + 1 := ⟨fuel - 1, by omega⟩
    rw [List.map_cons]
    simp only [readMembers, nextKey_member, readStringFrom_key, readColon_colon, readString_writeString, bind, Except.bind,
      String.ofList_toList]
    rw [ih (by omega)]
    simp

/-- An object is read from behind its opening brace. -/
theorem readPairs_brace {α : Type} (read : Reader α) (rest : Bytes) :
    readPairs read (0x7B :: rest) = readMembers read (rest.length + 1) true [] rest := rfl

end JobPlane.Json

namespace JobPlane.TextMap

/-- Maps are read back. -/
theorem readsBack : Json.ReadsBack read toJson := by
  intro m rest _
  let es : List (String × String) := m.entries.map fun e => (e.1, Json.writeString e.2)
  have hes : es.map Json.member = m.entries.map fun e => Json.member (e.1, Json.writeString e.2) := by simp [es]
  have hlength : m.entries.length ≤ (Json.listed true (es.map Json.member)).length := by
    have h := Json.length_le_members es
    rwa [List.length_map] at h
  have hpairs : Json.readPairs Json.readString (Bytes.ofText m.toJson ++ rest) = .ok (m.entries, rest) := by
    rw [show m.toJson = Json.writeObject es from rfl, Json.ofText_writeObject, List.cons_append, List.append_assoc,
      List.singleton_append, Json.readPairs_brace]
    rw [hes] at hlength ⊢
    refine Json.readMembers_listed ?_ rest
    rw [List.length_append, List.length_cons]
    omega
  rw [read, hpairs]
  simp [Except.map, ofList_entries]

end JobPlane.TextMap

namespace JobPlane.Json

/-! ## Records -/

variable {α β : Type} {fields : List (Field α)} {a b : α} {members : List (String × String)}

/-- Fields that are written one after another, with what the record is before them and with all of them read. -/
inductive Written : List (Field α) → α → List (String × String) → α → Prop
  /-- There is no field. -/
  | nil (a : α) : Written [] a [] a
  /-- A field is left out. -/
  | out {f : Field α} {fs : List (Field α)} {a b : α} {ms : List (String × String)} (hneed : f.need ≠ .required)
      (hrest : Written fs a ms b) : Written (f :: fs) a ms b
  /-- A field is written as a value which it reads. -/
  | field {f : Field α} {fs : List (Field α)} {a a' b : α} {ms : List (String × String)} {value : String}
      (hread : ∀ rest, Closed rest → f.read a (Bytes.ofText value ++ rest) = .ok (a', rest)) (hrest : Written fs a' ms b) :
      Written (f :: fs) a ((f.key, value) :: ms) b

namespace Written

/-- A field that is written with a value which its reader reads back. -/
theorem value {key : String} {need : Need} {read : Reader β} {write : β → String} {put : β → α → α} {v : β}
    (hback : ReadsBack read write) (hrest : Written fields (put v a) members b) :
    Written (.of key need read put :: fields) a ((key, write v) :: members) b := by
  refine .field (f := .of key need read put) (fun rest hclosed => ?_) hrest
  simp only [Field.of, hback v rest hclosed]
  rfl

/-- A field for a value that may be missing, which is left out where it is missing. -/
theorem option {key : String} {need : Need} {read : Reader β} {write : β → String} {put : Option β → α → α} {v : Option β}
    (hneed : need ≠ .required) (hblank : put none a = a)
    (hback : ∀ v rest, Closed rest → readOption read (Bytes.ofText (write v) ++ rest) = .ok (some v, rest))
    (hrest : Written fields (put v a) members b) :
    Written (.of key need (readOption read) put :: fields) a ((v.map fun v => (key, write v)).toList ++ members) b := by
  cases v with
  | none =>
    rw [hblank] at hrest
    exact .out hneed hrest
  | some v =>
    refine .field (f := .of key need (readOption read) put) (fun rest hclosed => ?_) hrest
    simp only [Field.of, hback v rest hclosed]
    rfl

/-- The keys that are written are those of fields, in their order. -/
theorem keys_sublist (h : Written fields a members b) : (members.map (·.1)).Sublist (fields.map (·.key)) := by
  induction h with
  | nil => exact List.Sublist.refl _
  | out _ _ ih => exact ih.cons _
  | field _ _ ih => exact ih.cons_cons _

/-- The keys of fields that have to be there are written. -/
theorem required_mem (h : Written fields a members b) {f : Field α} (hf : f ∈ fields) (hneed : f.need = .required) :
    f.key ∈ members.map (·.1) := by
  induction h with
  | nil => cases hf
  | out hout _ ih =>
    rcases List.mem_cons.mp hf with rfl | hf
    · exact absurd hneed hout
    · exact ih hf
  | field _ _ ih =>
    rcases List.mem_cons.mp hf with rfl | hf
    · exact List.mem_cons_self
    · exact List.mem_cons_of_mem _ (ih hf)

end Written

/-- A field is found by its key, where no two fields share one. -/
theorem find_key {f : Field α} (hkeys : (fields.map (·.key)).Nodup) (hf : f ∈ fields) :
    fields.find? (fun g => g.key == f.key) = some f := by
  induction fields with
  | nil => cases hf
  | cons g fields ih =>
    rw [List.map_cons, List.nodup_cons] at hkeys
    rcases List.mem_cons.mp hf with rfl | hf
    · rw [List.find?_cons_of_pos (by simp)]
    · have hne : g.key ≠ f.key := fun heq => hkeys.1 (heq ▸ List.mem_map_of_mem hf)
      rw [List.find?_cons_of_neg (by simpa using hne)]
      exact ih hkeys.2 hf

/-- What is written of the fields of a record, or of the last of them, is read up to the end of the object. -/
theorem readFields_written {all : List (Field α)} {fuel : Nat} {first : Bool} {seen : List String}
    (hall : (all.map (·.key)).Nodup) (h : Written fields a members b) (hlast : fields <:+ all) (hfuel : members.length < fuel)
    (hnew : ∀ m ∈ members, m.1 ∉ seen) (hneed : ∀ f ∈ all, f.need = .required → f.key ∈ seen ∨ f.key ∈ members.map (·.1))
    (rest : Bytes) : readFields all fuel first seen a (listed first (members.map member) ++ 0x7D :: rest) = .ok (b, rest) := by
  induction h generalizing fuel first seen with
  | nil a =>
    obtain ⟨fuel, rfl⟩ : ∃ n, fuel = n + 1 := ⟨fuel - 1, by simp only [List.length_nil] at hfuel; omega⟩
    have hcomplete : (all.all fun f => f.need != .required || seen.contains f.key) = true := by
      simpa [or_iff_not_imp_left] using hneed
    simp only [List.map_nil, listed, List.nil_append, readFields, nextKey_brace, closeObject_brace, hcomplete, bind, Except.bind,
      if_true]
    rfl
  | out _ _ ih => exact ih ((List.suffix_cons _ _).trans hlast) hfuel hnew hneed
  | @field f fs a a' b ms value hread hrest ih =>
    rw [List.length_cons] at hfuel
    obtain ⟨fuel, rfl⟩ : ∃ n, fuel = n + 1 := ⟨fuel - 1, by omega⟩
    have hfound := find_key hall (hlast.subset List.mem_cons_self)
    have hseen : seen.contains f.key = false := by
      simpa using hnew (f.key, value) List.mem_cons_self
    -- the keys that follow are those of other fields
    have hother : ∀ m ∈ ms, m.1 ∉ f.key :: seen := by
      intro m hm hmem
      rcases List.mem_cons.mp hmem with heq | hmem
      · have hnodup := (hlast.sublist.map (·.key)).nodup hall
        rw [List.map_cons, List.nodup_cons] at hnodup
        exact hnodup.1 (heq ▸ hrest.keys_sublist.subset (List.mem_map_of_mem hm))
      · exact hnew m (List.mem_cons_of_mem _ hm) hmem
    have hneed' : ∀ g ∈ all, g.need = .required → g.key ∈ f.key :: seen ∨ g.key ∈ ms.map (·.1) := by
      intro g hg hrequired
      rcases hneed g hg hrequired with hmem | hmem
      · exact Or.inl (List.mem_cons_of_mem _ hmem)
      · rcases List.mem_cons.mp hmem with heq | hmem
        · exact Or.inl (heq ▸ List.mem_cons_self)
        · exact Or.inr hmem
    have hvalue := hread _ (closed_listed (ms.map member) (closed_brace rest))
    rw [List.map_cons]
    simp only [readFields, nextKey_member, readStringFrom_key, readColon_colon, String.ofList_toList, hfound, hseen, hvalue, bind,
      Except.bind, Bool.false_eq_true, if_false]
    exact ih ((List.suffix_cons _ _).trans hlast) (by omega) hother hneed'

/-- A record's object is read from behind its opening brace. -/
theorem readRecord_brace (fields : List (Field α)) (a : α) (rest : Bytes) :
    readRecord fields a (0x7B :: rest) = readFields fields (rest.length + 1) true [] a rest := rfl

/-- A record that is written is read back. -/
theorem readRecord_writeObject (hkeys : (fields.map (·.key)).Nodup) (h : Written fields a members b) (rest : Bytes) :
    readRecord fields a (Bytes.ofText (writeObject members) ++ rest) = .ok (b, rest) := by
  have hlength := length_le_members members
  rw [ofText_writeObject, List.cons_append, List.append_assoc, List.singleton_append, readRecord_brace]
  refine readFields_written hkeys h (List.suffix_refl fields) ?_ (fun _ _ => List.not_mem_nil) ?_ rest
  · rw [List.length_append, List.length_cons]
    omega
  · intro f hf hneed
    exact Or.inr (h.required_mem hf hneed)

end JobPlane.Json
