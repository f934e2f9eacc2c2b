import JobPlane.Proofs.Frame.Routes
import JobPlane.Proofs.Log.Control
import JobPlane.Proofs.Log.Records

/-!
# The books of a copy

A ledger notes what has gone into a log's copy and what has come out of it: what was read, the chunks for which records were begun, and
what the sink took. As long as the sink refuses nothing the books balance: every byte read is on its way to a record or in one
(`Framed`, `Whole`), and the sink has the records that were begun, up to the pieces that are still to be written (`Balanced`). Once it
has refused something, no record that declares the log complete can come about any more (`Spoiled`).
-/

namespace JobPlane.Log

/-- What has gone in and out of a copy. -/
structure Ledger where
  /-- What was read from the source. -/
  intake : Splitter.Intake := {}
  /-- The chunks for which a forwarder took the sink. -/
  begun : List (OutputKind × Bytes) := []
  /-- What the sink took. -/
  taken : Bytes := []
  /-- The sink has refused bytes. -/
  refused : Bool := false

/-- What was begun of one stream. -/
def carried (k : OutputKind) (chunks : List (OutputKind × Bytes)) : Bytes := (chunks.filter fun p => p.1 = k).flatMap (·.2)

/-- One more chunk. -/
theorem carried_concat (k k' : OutputKind) (chunks : List (OutputKind × Bytes)) (chunk : Bytes) :
    carried k' (chunks ++ [(k, chunk)]) = carried k' chunks ++ if k' = k then chunk else [] := by
  by_cases h : k' = k
  · simp [carried, h]
  · have h' : k ≠ k' := fun heq => h heq.symm
    simp [carried, h, h']

namespace Ledger

/-- What a turn adds to the books. -/
def note (l : Ledger) : Copying.Event → Ledger
  | .read r => { l with intake := l.intake.note r }
  | .began k chunk => { l with begun := l.begun ++ [(k, chunk)] }
  | .gave bs => { l with taken := l.taken ++ bs }
  | .refused => { l with refused := true }
  | .quiet => l

/-- The records that were begun. -/
def records (l : Ledger) : List Record := l.begun.map fun p => .piece p.1.name (Utf8.lossy p.2)

end Ledger

/-- What a forwarder has read and not begun to write. -/
def Forwarder.hand : Forwarder → Bytes
  | queued chunk => chunk
  | _ => []

namespace Copying

variable {c c' : Copying} {k : OutputKind} {l l' : Ledger} {e : Event}

/-! ## From the source to the forwarders -/

/-- Every payload that came in is on its way to a record or in one, and a forwarder that is over has found the end of its pipe. -/
structure Framed (c : Copying) (l : Ledger) : Prop where
  routes : ∃ frames, c.splitter.Routes l.intake frames fun k => carried k l.begun ++ (c.forwarder k).hand
  drained : ∀ k r, c.forwarder k = .ended r →
    r = .ok () ∧ (c.splitter.lane k).pipe.closed = true ∧ (c.splitter.lane k).pipe.buffer = []

namespace Framed

/-- Chunks change hands, and the pump does not move. -/
theorem of_same (h : Framed c l) (hs : c'.splitter = c.splitter) (hi : l'.intake = l.intake)
    (hout : ∀ k, carried k l'.begun ++ (c'.forwarder k).hand = carried k l.begun ++ (c.forwarder k).hand)
    (hend : ∀ k r, c'.forwarder k = .ended r →
      r = .ok () ∧ (c.splitter.lane k).pipe.closed = true ∧ (c.splitter.lane k).pipe.buffer = []) : Framed c' l' where
  routes := by
    obtain ⟨frames, hroutes⟩ := h.routes
    rw [hs, hi, funext hout]
    exact ⟨frames, hroutes⟩
  drained := by
    rw [hs]
    exact hend

/-- The pump moves, which it does only while no forwarder is over. -/
theorem pump (h : Framed c l) {r : Option Reading} {s : Splitter} (ht : c.splitter.Turn r s)
    (hl : l'.intake = (r.map l.intake.note).getD l.intake) (hb : l'.begun = l.begun) :
    Framed { c with splitter := s } l' := by
  obtain ⟨frames, hroutes⟩ := h.routes
  refine ⟨?_, fun k r hk => ?_⟩
  · obtain ⟨frames', hroutes'⟩ := hroutes.turn ht
    rw [hl, hb]
    exact ⟨frames', by simpa using hroutes'⟩
  · obtain ⟨-, hclosed, -⟩ := h.drained k r (by simpa using hk)
    simp [hroutes.open_of_moving ht.phase_ne_ended] at hclosed

/-- A forwarder reads from its pipe. -/
theorem readPipe (h : Framed c l) {bs later : Bytes} (hf : c.forwarder k = .reading)
    (hb : (c.splitter.lane k).pipe.buffer = bs ++ later) :
    Framed ({ c with splitter := c.splitter.mapPipe k fun p => { p with buffer := later } }.setForwarder k (.queued bs)) l := by
  obtain ⟨frames, hroutes⟩ := h.routes
  refine ⟨⟨frames, ?_⟩, fun k' r hk' => ?_⟩
  · rw [splitter_setForwarder_of_going _ _ rfl]
    have hout : (fun k' => carried k' l.begun ++ (({ c with
        splitter := c.splitter.mapPipe k fun p => { p with buffer := later } }.setForwarder k (.queued bs)).forwarder k').hand) =
        fun k' => if k' = k then carried k l.begun ++ (c.forwarder k).hand ++ bs else carried k' l.begun ++ (c.forwarder k').hand := by
      funext k'
      rw [forwarder_setForwarder]
      by_cases heq : k' = k
      · simp [heq, hf, Forwarder.hand]
      · simp [heq]
    rw [hout]
    exact hroutes.draw hb
  · rw [forwarder_setForwarder] at hk'
    by_cases heq : k' = k
    · simp [heq] at hk'
    · rw [if_neg heq, forwarder_mk] at hk'
      rw [splitter_setForwarder_of_going _ _ rfl, Splitter.lane_mapPipe, if_neg heq]
      exact h.drained k' r hk'

/-- A forwarder changes without reading, and nothing is lost of what it has read. -/
theorem set (h : Framed c l) {f : Forwarder} (hf : f.result? = none) (hi : l'.intake = l.intake)
    (hout : carried k l'.begun ++ f.hand = carried k l.begun ++ (c.forwarder k).hand)
    (hother : ∀ k', k' ≠ k → carried k' l'.begun = carried k' l.begun) : Framed (c.setForwarder k f) l' := by
  refine h.of_same (splitter_setForwarder_of_going c k hf) hi (fun k' => ?_) (fun k' r hk' => ?_)
  · rw [forwarder_setForwarder]
    by_cases heq : k' = k
    · rw [if_pos heq, heq]
      exact hout
    · rw [if_neg heq, hother k' heq]
  · rw [forwarder_setForwarder] at hk'
    split at hk'
    · simp [hk', Forwarder.result?] at hf
    · exact h.drained k' r hk'

/-- A forwarder finds the end of its pipe. -/
theorem drain (h : Framed c l) (hf : c.forwarder k = .reading) (hclosed : (c.splitter.lane k).pipe.closed = true)
    (hb : (c.splitter.lane k).pipe.buffer = []) : Framed (c.setForwarder k (.ended (.ok ()))) l := by
  have hsame : (c.setForwarder k (.ended (.ok ()))).splitter = c.splitter := by
    have habandon : (c.splitter.lane k).pipe.abandon = (c.splitter.lane k).pipe := by
      simp only [Pipe.abandon, ← hb, ← hclosed]
    rw [splitter_setForwarder_ended, Splitter.mapPipe_congr (g := fun _ => (c.splitter.lane k).pipe) habandon, Splitter.mapPipe_same]
  refine h.of_same hsame rfl (fun k' => ?_) (fun k' r hk' => ?_)
  · rw [forwarder_setForwarder]
    by_cases heq : k' = k
    · simp [heq, hf, Forwarder.hand]
    · rw [if_neg heq]
  · rw [forwarder_setForwarder] at hk'
    by_cases heq : k' = k
    · subst heq
      rw [if_pos rfl] at hk'
      cases hk'
      exact ⟨rfl, hclosed, hb⟩
    · rw [if_neg heq] at hk'
      exact h.drained k' r hk'

/-- Nothing changes for the sink's sake. -/
theorem with_mux (h : Framed c l) (m : Mux Party) (a b : Option (Except StreamError Unit)) :
    Framed { c with mux := m, copied := a, result := b } l :=
  h.of_same rfl rfl (fun k => by simp) (fun k r hk => h.drained k r (by simpa using hk))

/-- Every turn keeps all payloads, as long as the sink refuses nothing. -/
theorem turn (h : Framed c l) (hc : Control c) (hs : c.source = .framed) (ht : c.Turn e c') (he : (l.note e).refused = false) :
    Framed c' (l.note e) := by
  cases ht with
  | pumpRead hs ht => exact h.pump ht rfl rfl
  | pumpWrite hs ht => exact h.pump ht rfl rfl
  | readWhole hs' hf hr ht => simp [hs] at hs'
  | readPipe hs hf hb hne => exact h.readPipe hf hb
  | drained hs hf hclosed hb => exact h.drain hf hclosed hb
  | @acquire k chunk hf hm =>
    refine (h.with_mux _ c.copied c.result).set rfl rfl ?_ fun k' hk' => ?_
    · simp [Ledger.note, carried_concat, Forwarder.hand, hf]
    · simp [Ledger.note, carried_concat, hk']
  | pass hm => exact h.with_mux _ _ _
  | give hm => exact (h.with_mux _ _ _).of_same rfl rfl (fun _ => rfl) (h.with_mux _ _ _).drained
  | refuse hm hne => simp [Ledger.note] at he
  | @done who call hm =>
    cases who with
    | forwarder k =>
      have hf := hc.writing_of_holder hm
      exact (h.with_mux _ c.copied c.result).set (f := .reading) rfl rfl
        (by simp [Ledger.note, Forwarder.hand, hf]) fun _ _ => rfl
    | closer => exact h.with_mux _ _ _
  | close hc ho hm => exact h.with_mux _ _ _

end Framed

/-- Every byte that was read is on its way to a record of the one stream or in one. -/
structure Whole (c : Copying) (l : Ledger) : Prop where
  conserved : l.intake.got = carried .stdout l.begun ++ (c.forwarder .stdout).hand
  stop : l.intake.stop = (c.forwarder .stdout).result?
  single : carried .stderr l.begun = []

namespace Whole

/-- Nothing changes for the forwarder. -/
theorem of_same (h : Whole c l) (hf : c'.forwarder .stdout = c.forwarder .stdout) (hi : l'.intake = l.intake)
    (hb : l'.begun = l.begun) : Whole c' l' where
  conserved := by
    rw [hf, hi, hb]
    exact h.conserved
  stop := by
    rw [hf, hi]
    exact h.stop
  single := by
    rw [hb]
    exact h.single

/-- Nothing changes for the sink's sake. -/
theorem with_mux (h : Whole c l) (m : Mux Party) (a b : Option (Except StreamError Unit)) :
    Whole { c with mux := m, copied := a, result := b } l :=
  h.of_same (by simp) rfl rfl

/-- The forwarder reads. -/
theorem read (h : Whole c l) {r : Reading} {f : Forwarder} (hf : c.forwarder .stdout = .reading) (hr : Forwarder.take r = some f) :
    Whole (c.setForwarder .stdout f) (l.note (.read r)) := by
  have hconserved := h.conserved
  have hstop := h.stop
  simp only [hf, Forwarder.hand, Forwarder.result?, List.append_nil] at hconserved hstop
  have hf' : (c.setForwarder .stdout f).forwarder .stdout = f := by simp [forwarder_setForwarder]
  unfold Forwarder.take at hr
  split at hr <;> cases hr
  all_goals
    refine ⟨?_, ?_, h.single⟩
    · simp [hf', Ledger.note, Splitter.Intake.note, Forwarder.hand, hconserved]
    · simp [hf', Ledger.note, Splitter.Intake.note, Forwarder.result?, hstop]

/-- The forwarder changes without reading, and nothing is lost of what it has read. -/
theorem set (h : Whole c l) {f : Forwarder} (hi : l'.intake = l.intake)
    (hout : carried .stdout l'.begun ++ f.hand = carried .stdout l.begun ++ (c.forwarder .stdout).hand)
    (hr : f.result? = (c.forwarder .stdout).result?) (hsingle : carried .stderr l'.begun = []) :
    Whole (c.setForwarder .stdout f) l' where
  conserved := by
    rw [forwarder_setForwarder, if_pos rfl, hi, hout]
    exact h.conserved
  stop := by
    rw [forwarder_setForwarder, if_pos rfl, hi, hr]
    exact h.stop
  single := hsingle

/-- Every turn keeps all bytes, as long as the sink refuses nothing. -/
theorem turn (h : Whole c l) (hc : Control c) (hs : c.source ≠ .framed) (ht : c.Turn e c') (he : (l.note e).refused = false) :
    Whole c' (l.note e) := by
  have hstderr : c.forwarder .stderr = .reading := by
    rcases hc.source with hs' | ⟨-, hstderr⟩
    · exact absurd hs' hs
    · exact hstderr
  cases ht with
  | pumpRead hs' ht => exact absurd hs' hs
  | pumpWrite hs' ht => exact absurd hs' hs
  | readWhole hs' hf hr ht => exact h.read hf ht
  | readPipe hs' hf hb hne => exact absurd hs' hs
  | drained hs' hf hclosed hb => exact absurd hs' hs
  | @acquire k chunk hf hm =>
    cases k with
    | stderr => simp [hstderr] at hf
    | stdout =>
      refine (h.with_mux _ c.copied c.result).set rfl ?_ ?_ ?_
      · simp [Ledger.note, carried_concat, Forwarder.hand, hf]
      · simp [Forwarder.result?, hf]
      · simp [Ledger.note, carried_concat, h.single]
  | pass hm => exact h.of_same (by simp) rfl rfl
  | give hm => exact h.of_same (by simp) rfl rfl
  | refuse hm hne => simp [Ledger.note] at he
  | @done who call hm =>
    cases who with
    | forwarder k =>
      have hf := hc.writing_of_holder hm
      cases k with
      | stderr => simp [hstderr] at hf
      | stdout =>
        refine (h.with_mux _ c.copied c.result).set (f := .reading) rfl ?_ ?_ h.single
        · simp [Ledger.note, Forwarder.hand, hf]
        · simp [Forwarder.result?, hf]
    | closer => exact h.of_same (by simp [Copying.note]) rfl rfl
  | close hc ho hm => exact h.of_same (by simp) rfl rfl

end Whole

/-! ## From the forwarders to the sink -/

/-- The pieces of the call that has the sink that are still to be written. -/
def pending (c : Copying) : List Bytes := (c.mux.holder.map (·.2.2)).getD []

/-- What closing the sink writes. -/
def ending : Option (Except StreamError Unit) → Bytes
  | some (.ok ()) => endMarker
  | _ => []

@[simp] theorem ending_none : ending none = [] := rfl

/-- The sink has the records that were begun, and what closes the log, up to the pieces that are still to be written. -/
structure Balanced (c : Copying) (l : Ledger) : Prop where
  sum : l.taken ++ (pending c).flatten = l.records.flatMap Record.bytes ++ ending c.copied
  chunks : ∀ p ∈ l.begun, p.2 ≠ []
  queued : ∀ k chunk, c.forwarder k = .queued chunk → chunk ≠ []
  result : c.result = none ∨ c.result = c.copied

namespace Balanced

/-- Nothing changes for the sink. -/
theorem of_same (h : Balanced c l) (hm : c'.mux = c.mux) (hc : c'.copied = c.copied) (hr : c'.result = c.result)
    (ht : l'.taken = l.taken) (hb : l'.begun = l.begun)
    (hq : ∀ k chunk, c'.forwarder k = .queued chunk → chunk ≠ []) : Balanced c' l' where
  sum := by
    rw [pending, hm, hc, ht, Ledger.records, hb]
    exact h.sum
  chunks := by
    rw [hb]
    exact h.chunks
  queued := hq
  result := by
    rw [hr, hc]
    exact h.result

/-- A forwarder that has not got the sink moves on without it. -/
theorem set (h : Balanced c l) {f : Forwarder} (hf : ∀ chunk, f = .queued chunk → chunk ≠ []) (ht : l'.taken = l.taken)
    (hb : l'.begun = l.begun) : Balanced (c.setForwarder k f) l' := by
  refine h.of_same (by simp) (by simp) (by simp) ht hb fun k' chunk hk' => ?_
  rw [forwarder_setForwarder] at hk'
  split at hk'
  · exact hf chunk hk'
  · exact h.queued k' chunk hk'

/-- Whoever has the sink writes on. -/
theorem keep (h : Balanced c l) {who : Party} {call : MuxCall} {ps ps' : List Bytes} (hm : c.mux.holder = some (who, call, ps))
    (hsum : l'.taken ++ ps'.flatten = l.taken ++ ps.flatten) (hb : l'.begun = l.begun) :
    Balanced { c with mux := { c.mux with holder := some (who, call, ps') } } l' where
  sum := by
    have hpending : pending c = ps := by simp [pending, hm]
    rw [Ledger.records, hb, ← Ledger.records, ← h.sum, hpending]
    exact hsum
  chunks := by
    rw [hb]
    exact h.chunks
  queued k chunk hk := h.queued k chunk (by simpa using hk)
  result := h.result

/-- The pump moves on. -/
theorem with_splitter (h : Balanced c l) (s : Splitter) (ht : l'.taken = l.taken) (hb : l'.begun = l.begun) :
    Balanced { c with splitter := s } l' :=
  h.of_same rfl rfl rfl ht hb fun k chunk hk => h.queued k chunk (by simpa using hk)

/-- A sink that is free has the records that were begun. -/
theorem sum_of_free (h : Balanced c l) (hm : c.mux.holder = none) :
    l.taken = l.records.flatMap Record.bytes ++ ending c.copied := by
  have hsum := h.sum
  simpa [pending, hm] using hsum

/-- A forwarder takes the sink. -/
theorem acquire (h : Balanced c l) (hc : Control c) {chunk : Bytes} (hf : c.forwarder k = .queued chunk)
    (hm : c.mux.holder = none) :
    Balanced { c with mux := { c.mux with holder := some (.forwarder k, .write (c.nameOf k) chunk,
      MuxCall.pieces c.mux.encoding (.write (c.nameOf k) chunk)) } } (l.note (.began k chunk)) := by
  have hcopied : c.copied = none := hc.not_copied (k := k) (by simp [hf, Forwarder.result?]) (by simp [hf])
  have htaken := h.sum_of_free hm
  rw [hcopied] at htaken
  refine ⟨?_, ?_, fun k' chunk' hk' => h.queued k' chunk' (by simpa using hk'), h.result⟩
  · have hname : c.nameOf k = k.name := hc.nameOf (by simp [hf])
    have hpieces : MuxCall.pieces .events (.write k.name chunk) = recordPieces k.name chunk := rfl
    simp only [pending, Option.map_some, Option.getD_some, hc.encoding, hname, hpieces, flatten_recordPieces, hcopied, Ledger.note,
      Ledger.records, List.map_append, List.flatMap_append, htaken]
    simp [ending]
  · intro p hp
    rcases List.mem_append.mp hp with hp | hp
    · exact h.chunks p hp
    · rw [List.mem_singleton] at hp
      rw [hp]
      exact h.queued k chunk hf

/-- A call that is over leaves the sink free. -/
theorem release (h : Balanced c l) {who : Party} {call : MuxCall} (hm : c.mux.holder = some (who, call, [])) :
    Balanced { c with mux := { c.mux with holder := none } } l where
  sum := by
    have hsum := h.sum
    simpa [pending, hm] using hsum
  chunks := h.chunks
  queued k chunk hk := h.queued k chunk (by simpa using hk)
  result := h.result

/-- The sink is taken for closing it. -/
theorem close (h : Balanced c l) (hc : Control c) {r : Except StreamError Unit} (hcopied : c.copied = none) (hm : c.mux.holder = none) :
    Balanced { c with
      mux := { c.mux with holder := some (.closer, closing r, (closing r).pieces c.mux.encoding) }
      copied := some r } l where
  sum := by
    have htaken := h.sum_of_free hm
    rw [hcopied] at htaken
    have hpieces : ((closing r).pieces .events).flatten = ending (some r) := by
      cases r <;> simp [closing, MuxCall.pieces, ending]
    simp only [pending, Option.map_some, Option.getD_some, hc.encoding, hpieces, htaken]
    simp [ending]
  chunks := h.chunks
  queued k chunk hk := h.queued k chunk (by simpa using hk)
  result := by
    rcases h.result with hr | hr
    · exact Or.inl hr
    · exact Or.inl (hr.trans hcopied)

/-- Every turn leaves the sink with the records that were begun, as long as the sink refuses nothing. -/
theorem turn (h : Balanced c l) (hc : Control c) (ht : c.Turn e c') (he : (l.note e).refused = false) :
    Balanced c' (l.note e) := by
  cases ht with
  | pumpRead hs ht => exact h.with_splitter _ rfl rfl
  | pumpWrite hs ht => exact h.with_splitter _ rfl rfl
  | @readWhole name r f hs hf hr ht =>
    refine h.set (fun chunk hq => ?_) rfl rfl
    unfold Forwarder.take at ht
    split at ht <;> cases ht <;> cases hq
    exact hr _ rfl
  | readPipe hs hf hb hne =>
    refine (h.with_splitter _ rfl rfl).set (fun chunk hq => ?_) rfl rfl
    cases hq
    exact hne
  | drained hs hf hclosed hb => exact h.set (by simp) rfl rfl
  | acquire hf hm => exact (h.acquire hc hf hm).set (by simp) rfl rfl
  | pass hm => exact h.keep hm (by simp [Ledger.note]) rfl
  | @give who call p ps n hm =>
    refine h.keep hm ?_ rfl
    simp only [Ledger.note, List.flatten_cons, List.append_assoc, List.append_cancel_left_eq]
    rw [← List.append_assoc, List.take_append_drop]
  | refuse hm hne => simp [Ledger.note] at he
  | @done who call hm =>
    cases who with
    | forwarder k => exact (h.release hm).set (f := .reading) (by simp) rfl rfl
    | closer =>
      obtain ⟨hcopied, -⟩ := hc.closing.mp (by simp [Mux.taker, hm])
      obtain ⟨r, hr⟩ := Option.isSome_iff_exists.mp hcopied
      have hfree := h.release hm
      refine ⟨hfree.sum, hfree.chunks, fun k chunk hk => h.queued k chunk (by simpa [Copying.note] using hk), Or.inr ?_⟩
      cases r <;> simp [Copying.note, hr, both]
  | close hcopied ho hm => exact h.close hc hcopied hm

end Balanced

end Copying

end JobPlane.Log
