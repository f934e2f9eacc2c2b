import JobPlane.Proofs.Log.Ledger

/-!
# Copies whose sink has refused something

Once a sink has refused bytes of a log, nothing that is written later declares the log complete (`Spoiled.turn`): either a forwarder has
failed, so that the log can only be closed as one that was cut off, or the record that declares the log complete was itself cut off, and
then nothing is written any more.
-/

namespace JobPlane.Log

/-- The bytes of the records that were begun declare nothing complete. -/
theorem Ledger.torn_records (l : Ledger) : Torn (l.records.flatMap Record.bytes) := by
  refine torn_of_pieces fun r hr => ?_
  obtain ⟨p, -, rfl⟩ := List.mem_map.mp hr
  simp

namespace Copying

variable {c c' : Copying} {k : OutputKind} {l l' : Ledger} {e : Event}

/-- A part of records and of what closes a log that is not all of it declares nothing complete. -/
theorem unmarked_of_part {recs taken rest : Bytes} {r : Option (Except StreamError Unit)} (hrecs : Torn recs) (hne : rest ≠ [])
    (h : taken ++ rest = recs ++ ending r) : Unmarked taken := by
  have hend : ending r = endMarker ∨ ending r = [] := by
    unfold ending
    split
    · exact Or.inl rfl
    · exact Or.inr rfl
  rcases hend with hend | hend
  · rw [hend] at h
    rcases List.append_eq_append_iff.mp h with ⟨more, rfl, -⟩ | ⟨part, rfl, hmarker⟩
    · exact hrecs.of_append.unmarked
    · refine ⟨recs, part, rfl, hrecs, ⟨rest, hmarker.symm⟩, fun hall => hne ?_⟩
      rw [← hall] at hmarker
      simpa using hmarker
  · rw [hend, List.append_nil] at h
    exact (h ▸ hrecs : Torn (taken ++ rest)).of_append.unmarked

/-- A forwarder has failed, and what has been written and is still to be written declares nothing complete. -/
structure Broken (c : Copying) (l : Ledger) : Prop where
  failed : ∃ k e, c.forwarder k = .ended (.error e)
  torn : Torn (l.taken ++ (pending c).flatten)

/-- Closing the sink has failed, and what has been written declares nothing complete. -/
structure Unfinished (c : Copying) (l : Ledger) : Prop where
  settled : c.result.isSome
  unmarked : Unmarked l.taken

/-- The sink has refused something, and the log cannot be declared complete any more. -/
def Spoiled (c : Copying) (l : Ledger) : Prop := Broken c l ∨ Unfinished c l

/-- What has been written to a sink that has refused something declares nothing complete. -/
theorem Spoiled.unmarked (h : Spoiled c l) : Unmarked l.taken := by
  rcases h with h | h
  · exact h.torn.of_append.unmarked
  · exact h.unmarked

namespace Control

/-- A copy of which a forwarder has failed has not ended well. -/
theorem outcome_of_failed (h : Control c) {e : StreamError} {r : Except StreamError Unit} (hf : c.forwarder k = .ended (.error e))
    (ho : c.outcome = some r) : ∃ e', r = .error e' := by
  rcases h.source with hs | ⟨hs, hstderr⟩
  · obtain ⟨p, o, x, -, hstdout, hstderr, rfl⟩ := outcome_framed hs ho
    cases k
    · rw [hstdout] at hf
      cases hf
      cases p <;> exact ⟨_, rfl⟩
    · rw [hstderr] at hf
      cases hf
      cases p <;> cases o <;> exact ⟨_, rfl⟩
  · have hstdout := outcome_whole hs ho
    cases k
    · rw [hstdout] at hf
      cases hf
      exact ⟨e, rfl⟩
    · simp [hstderr] at hf

end Control

namespace Broken

/-- Nothing changes for the sink, and no forwarder comes back. -/
theorem of_same (h : Broken c l) (hm : c'.mux = c.mux) (ht : l'.taken = l.taken)
    (hf : ∀ k r, c.forwarder k = .ended r → c'.forwarder k = .ended r) : Broken c' l' where
  failed := by
    obtain ⟨k, e, hk⟩ := h.failed
    exact ⟨k, e, hf k _ hk⟩
  torn := by
    rw [pending, hm, ht]
    exact h.torn

/-- The pump moves on. -/
theorem with_splitter (h : Broken c l) (s : Splitter) : Broken { c with splitter := s } l :=
  h.of_same rfl rfl fun k r hk => by simpa using hk

/-- A forwarder that is not over moves on. -/
theorem set (h : Broken c l) {f : Forwarder} (hf : (c.forwarder k).result? = none) (ht : l'.taken = l.taken) :
    Broken (c.setForwarder k f) l' := by
  refine h.of_same (by simp) ht fun k' r hk' => ?_
  rw [forwarder_setForwarder]
  split
  · rename_i heq
    simp [← heq, hk', Forwarder.result?] at hf
  · exact hk'

/-- What is still to be written changes. -/
theorem with_pending (h : Broken c l) {m : Mux Party} (a b : Option (Except StreamError Unit))
    (ht : Torn (l'.taken ++ ((m.holder.map (·.2.2)).getD []).flatten)) : Broken { c with mux := m, copied := a, result := b } l' where
  failed := by
    obtain ⟨k, e, hk⟩ := h.failed
    exact ⟨k, e, by simpa using hk⟩
  torn := ht

/-- A call ends, or is given up. -/
theorem release (h : Broken c l) (hc : Control c) {who : Party} {call : MuxCall} {ps : List Bytes}
    (hm : c.mux.holder = some (who, call, ps)) (r : Except StreamError Unit) (ht : l'.taken = l.taken) :
    Broken (note { c with mux := { c.mux with holder := none } } (who, call, r)) l' := by
  have hfree (b : Option (Except StreamError Unit)) :
      Broken { c with mux := { c.mux with holder := none }, result := b } l' :=
    h.with_pending c.copied b (by simpa [ht] using h.torn.of_append)
  cases who with
  | forwarder k =>
    have hf : (c.forwarder k).result? = none := by
      rw [hc.writing_of_holder hm]
      rfl
    cases r with
    | ok u => exact (hfree c.result).set (f := .reading) (by simpa using hf) rfl
    | error e => exact (hfree c.result).set (f := .ended (.error e)) (by simpa using hf) rfl
  | closer => exact hfree _

/-- Every turn leaves a copy broken. -/
theorem turn (h : Broken c l) (hc : Control c) (ht : c.Turn e c') : Broken c' (l.note e) := by
  cases ht with
  | pumpRead hs ht => exact (h.with_splitter _).of_same rfl rfl fun k r hk => hk
  | pumpWrite hs ht => exact h.with_splitter _
  | readWhole hs hf hr ht => exact h.set (by simp [hf, Forwarder.result?]) rfl
  | @readPipe k _ _ hs hf hb hne => exact (h.with_splitter _).set (k := k) (by simp [hf, Forwarder.result?]) rfl
  | drained hs hf hclosed hb => exact h.set (by simp [hf, Forwarder.result?]) rfl
  | @acquire k chunk hf hm =>
    have hname : c.nameOf k = k.name := hc.nameOf (by simp [hf])
    have hpieces : MuxCall.pieces .events (.write k.name chunk) = recordPieces k.name chunk := rfl
    have hbegun : Torn (l.taken ++ (MuxCall.pieces c.mux.encoding (.write (c.nameOf k) chunk)).flatten) := by
      rw [hc.encoding, hname, hpieces, flatten_recordPieces]
      exact h.torn.of_append.append (Record.torn_piece _ _)
    have hmux : Broken { c with mux := { c.mux with holder := some (.forwarder k, .write (c.nameOf k) chunk,
        MuxCall.pieces c.mux.encoding (.write (c.nameOf k) chunk)) } } l :=
      h.with_pending c.copied c.result hbegun
    exact hmux.set (by simp [hf, Forwarder.result?]) rfl
  | pass hm => exact h.with_pending _ _ (by simpa [pending, hm, Ledger.note] using h.torn)
  | @give who call p ps n hm =>
    refine h.with_pending _ _ ?_
    have htorn := h.torn
    simp only [pending, hm, Option.map_some, Option.getD_some, List.flatten_cons] at htorn
    simp only [Ledger.note, Option.map_some, Option.getD_some, List.flatten_cons, List.append_assoc]
    rwa [← List.append_assoc (p.take n), List.take_append_drop]
  | refuse hm hne => exact h.release hc hm _ rfl
  | done hm => exact h.release hc hm _ rfl
  | close hcopied ho hm =>
    obtain ⟨k, e, hk⟩ := h.failed
    obtain ⟨e', rfl⟩ := hc.outcome_of_failed hk ho
    refine h.with_pending _ _ ?_
    simpa [closing, MuxCall.pieces, Ledger.note] using h.torn.of_append

end Broken

/-- Every turn leaves a copy over, and writes nothing. -/
theorem Unfinished.turn (h : Unfinished c l) (hc : Control c) (ht : c.Turn e c') : Unfinished c' (l.note e) := by
  have hfree := hc.free_of_result h.settled
  have hcopied := hc.closed h.settled
  cases ht with
  | pumpRead hs ht => exact ⟨h.settled, h.unmarked⟩
  | pumpWrite hs ht => exact ⟨h.settled, h.unmarked⟩
  | readWhole hs hf hr ht => exact ⟨by simpa using h.settled, h.unmarked⟩
  | readPipe hs hf hb hne => exact ⟨by simpa using h.settled, h.unmarked⟩
  | drained hs hf hclosed hb => exact ⟨by simpa using h.settled, h.unmarked⟩
  | acquire hf hm => exact ⟨by simpa using h.settled, h.unmarked⟩
  | pass hm => simp [hfree] at hm
  | give hm => simp [hfree] at hm
  | refuse hm hne => simp [hfree] at hm
  | done hm => simp [hfree] at hm
  | close hnone ho hm => simp [hnone] at hcopied

/-- Every turn leaves a log that cannot be declared complete as it is. -/
theorem Spoiled.turn (h : Spoiled c l) (hc : Control c) (ht : c.Turn e c') : Spoiled c' (l.note e) := by
  rcases h with h | h
  · exact Or.inl (h.turn hc ht)
  · exact Or.inr (h.turn hc ht)

/-- The first bytes that a sink refuses leave the log so that it cannot be declared complete any more. -/
theorem Balanced.spoiled (h : Balanced c l) (hc : Control c) {who : Party} {call : MuxCall} {p : Bytes} {ps : List Bytes}
    (hm : c.mux.holder = some (who, call, p :: ps)) (hne : p ≠ []) (e : StreamError) :
    Spoiled (note { c with mux := { c.mux with holder := none } } (who, call, .error e)) (l.note .refused) := by
  have hsum := h.sum
  simp only [pending, hm, Option.map_some, Option.getD_some, List.flatten_cons] at hsum
  cases who with
  | forwarder k =>
    left
    have hf := hc.writing_of_holder hm
    have hcopied : c.copied = none := hc.not_copied (k := k) (by simp [hf, Forwarder.result?]) (by simp [hf])
    have htorn : Torn (l.taken ++ (p ++ ps.flatten)) := by
      rw [hsum, hcopied, ending_none, List.append_nil]
      exact l.torn_records
    refine ⟨⟨k, e, by simp [note, forwarder_setForwarder]⟩, ?_⟩
    have hnone : pending (note { c with mux := { c.mux with holder := none } } (.forwarder k, call, .error e)) = [] := by
      simp [pending, note]
    rw [hnone, List.flatten_nil, List.append_nil]
    exact htorn.of_append
  | closer =>
    right
    exact ⟨rfl, unmarked_of_part l.torn_records (by simp [hne]) hsum⟩

end Copying

end JobPlane.Log
