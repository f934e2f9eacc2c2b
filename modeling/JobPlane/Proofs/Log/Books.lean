import JobPlane.Proofs.Log.Spoiled

/-!
# All of a copy's books

`Books` puts together what holds of a log's copy at every moment, whatever its source brings and its sink takes. Every turn keeps it
(`Books.turn`). Once all parts of the copy are over the records are those of everything that was read (`Books.concluded`), and a record
that declares the log complete is written only then, only if everything ended well, and only as the last one (`Books.marker`).
-/

namespace JobPlane.Log

namespace Copying

variable {c c' : Copying} {k : OutputKind} {l l' : Ledger} {e : Event}

/-- What holds of a copy and its ledger at every moment. -/
structure Books (c : Copying) (l : Ledger) : Prop where
  control : Control c
  lanes : Lanes c
  framed : l.refused = false → c.source = .framed → Framed c l
  whole : l.refused = false → c.source ≠ .framed → Whole c l
  balanced : l.refused = false → Balanced c l
  spoiled : l.refused = true → Spoiled c l

/-- The source of a copy is read no more once whoever reads it is over. -/
theorem sourceReleased_iff :
    c.sourceReleased = true ↔ c.source = .framed ∧ (∃ r, c.splitter.phase = .ended r) ∨
      (∃ name, c.source = .whole name) ∧ ∃ r, c.forwarder .stdout = .ended r := by
  unfold sourceReleased
  cases c.source with
  | whole name => cases hf : c.stdout <;> simp [forwarder, hf, Forwarder.result?]
  | framed => cases hp : c.splitter.phase <;> simp [Splitter.running, hp]

/-- A source that is read no more is not read. -/
theorem Turn.not_released {r : Reading} (h : c.Turn (.read r) c') : c.sourceReleased = false := by
  by_contra hreleased
  rw [Bool.not_eq_false, sourceReleased_iff] at hreleased
  cases h with
  | pumpRead hs ht =>
    obtain ⟨fr, hp⟩ := ht.phase_of_read
    simp [hs, hp] at hreleased
  | readWhole hs hf => simp [hs, hf] at hreleased

/-- A forwarder that is over stays so when a call ends. -/
theorem Manned.ended_release (h : Manned c) {who : Party} {call call' : MuxCall} {ps : List Bytes} {r r' : Except StreamError Unit}
    (hm : c.mux.holder = some (who, call, ps)) (hf : c.forwarder k = .ended r) :
    (note { c with mux := { c.mux with holder := none } } (who, call', r')).forwarder k = .ended r := by
  cases who with
  | closer => simpa [note] using hf
  | forwarder k' =>
    have hother : k ≠ k' := by
      rintro rfl
      simp [h.writing_of_holder hm] at hf
    cases r' <;> simp [note, forwarder_setForwarder, hother, hf]

/-- A source that is read no more stays so. -/
theorem Control.turn_released (hcontrol : Control c) (h : c.Turn e c') (hr : c.sourceReleased = true) : c'.sourceReleased = true := by
  rw [sourceReleased_iff] at *
  rw [h.source_eq]
  refine hr.imp (fun ⟨hs, r, hp⟩ => ⟨hs, r, ?_⟩) (fun ⟨⟨name, hs⟩, r, hf⟩ => ⟨⟨name, hs⟩, r, ?_⟩)
  · -- the pump makes no move any more
    cases h with
    | pumpRead _ ht =>
      obtain ⟨fr, hreading⟩ := ht.phase_of_read
      simp [hp] at hreading
    | pumpWrite _ ht => cases ht <;> simp_all
    | @refuse who call p ps e hm hne => cases who <;> simp [note, hp]
    | @done who call hm => cases who <;> simp [note, hp]
    | _ => simp [hp]
  · -- the forwarder neither reads nor holds a chunk, and it has not got the sink
    cases h with
    | pumpRead hs' => simp [hs] at hs'
    | pumpWrite hs' => simp [hs] at hs'
    | readWhole _ hf' => simp [hf] at hf'
    | readPipe hs' => simp [hs] at hs'
    | drained hs' => simp [hs] at hs'
    | @acquire k chunk hf' hm =>
      cases k with
      | stdout => simp [hf] at hf'
      | stderr => simp [forwarder_setForwarder, hf]
    | pass hm => simpa using hf
    | give hm => simpa using hf
    | refuse hm hne => exact hcontrol.ended_release hm hf
    | done hm => exact hcontrol.ended_release hm hf
    | close => simpa using hf

/-- A sink that has refused nothing after a turn had refused nothing before it. -/
theorem refused_of_note (h : (l.note e).refused = false) : l.refused = false := by
  cases e <;> simp_all [Ledger.note]

/-- What the records of a copy carry once all its parts are over, and how the copying ended: of framed output the payloads of all
complete frames, of other output all bytes as one stream. -/
def Concluded (c : Copying) (l : Ledger) (r : Except StreamError Unit) : Prop :=
  match c.source with
  | .framed => ∃ frames, Splitter.Paces (.ended r) l.intake frames ∧ ∀ k, carried k l.begun = Frame.payloads k frames
  | .whole _ => l.intake.stop = some r ∧ ∀ k, carried k l.begun = if k = .stdout then l.intake.got else []

/-- A copy has ended well only if it found the end of its source. -/
theorem Concluded.stop (h : Concluded c l (.ok ())) : l.intake.stop = some (.ok ()) := by
  unfold Concluded at h
  split at h
  · obtain ⟨frames, hpaces, -⟩ := h
    rcases hpaces with ⟨hstop, -⟩ | ⟨e, fr, -, hfailed, -⟩ | ⟨-, e, hfailed, -⟩
    · exact hstop
    · cases hfailed
    · cases hfailed
  · exact h.1

namespace Books

/-- The books of a copy that has not begun. -/
theorem start (tty : Bool) : Books (.start .events tty) {} where
  control := .start tty
  lanes := .start .events tty
  framed _ _ := by
    refine ⟨⟨[], ?_⟩, fun k r hk => by cases k <;> simp [Copying.start, forwarder] at hk⟩
    have hout : (fun k => carried k [] ++ ((Copying.start .events tty).forwarder k).hand) = fun _ => [] := by
      funext k
      cases k <;> rfl
    rw [hout]
    exact .start
  whole _ _ := ⟨rfl, rfl, rfl⟩
  balanced _ := ⟨rfl, by simp, fun k chunk hk => by cases k <;> simp [Copying.start, forwarder] at hk, Or.inl rfl⟩
  spoiled h := by cases h

/-- Every turn keeps the books. -/
theorem turn (h : Books c l) (ht : c.Turn e c') : Books c' (l.note e) where
  control := h.control.turn ht
  lanes := h.lanes.turn ht
  framed hr hs := by
    rw [ht.source_eq] at hs
    exact (h.framed (refused_of_note hr) hs).turn h.control hs ht hr
  whole hr hs := by
    rw [ht.source_eq] at hs
    exact (h.whole (refused_of_note hr) hs).turn h.control hs ht hr
  balanced hr := (h.balanced (refused_of_note hr)).turn h.control ht hr
  spoiled hr := by
    cases hl : l.refused with
    | true => exact (h.spoiled hl).turn h.control ht
    | false =>
      cases ht with
      | refuse hm hne => exact (h.balanced hl).spoiled h.control hm hne _
      | _ => simp [Ledger.note, hl] at hr

/-- The source is read only before its end was found. -/
theorem stop_eq_none (h : Books c l) (hr : l.refused = false) {r : Reading} (ht : c.Turn (.read r) c') : l.intake.stop = none := by
  cases ht with
  | pumpRead hs ht =>
    obtain ⟨frames, hroutes⟩ := (h.framed hr hs).routes
    obtain ⟨fr, hp⟩ := ht.phase_of_read
    have hpaces := hroutes.paces
    rw [hp] at hpaces
    exact hpaces.2
  | readWhole hs hf hb ht =>
    rw [(h.whole hr (by simp [hs])).stop, hf]
    rfl

/-- Once all parts of a copy are over its records carry everything that was read. -/
theorem concluded (h : Books c l) (hr : l.refused = false) {r : Except StreamError Unit} (hc : c.copied = some r) :
    Concluded c l r := by
  have ho := h.control.copied r hc
  unfold Concluded
  split
  · rename_i hs
    have hframed := h.framed hr hs
    obtain ⟨frames, hroutes⟩ := hframed.routes
    obtain ⟨p, o, e, hp, hstdout, hstderr, rfl⟩ := outcome_framed hs ho
    obtain ⟨rfl, -, hout⟩ := hframed.drained .stdout o hstdout
    obtain ⟨rfl, -, herr⟩ := hframed.drained .stderr e hstderr
    have hboth : both (both p (.ok ())) (.ok ()) = p := by cases p <;> rfl
    have hpaces := hroutes.paces
    rw [hp] at hpaces
    refine ⟨frames, by rwa [hboth], fun k => ?_⟩
    have hconserved := hroutes.conserved k
    rw [hconserved]
    cases k
    · simp [hout, hstdout, Forwarder.hand, Splitter.held, hp]
    · simp [herr, hstderr, Forwarder.hand, Splitter.held, hp]
  · rename_i name hs
    have hwhole := h.whole hr (by simp [hs])
    have hstdout := outcome_whole hs ho
    refine ⟨by rw [hwhole.stop, hstdout]; rfl, fun k => ?_⟩
    cases k
    · simp [hwhole.conserved, hstdout, Forwarder.hand]
    · simp [hwhole.single]

/-- The bytes that the sink of a copy that is over has taken. -/
theorem taken_of_result (h : Books c l) (hr : l.refused = false) (hres : c.result.isSome) :
    ∃ r, c.copied = some r ∧ c.result = some r ∧ l.taken = l.records.flatMap Record.bytes ++ ending (some r) := by
  have hbalanced := h.balanced hr
  obtain ⟨r, hc⟩ := Option.isSome_iff_exists.mp (h.control.closed hres)
  refine ⟨r, hc, ?_, ?_⟩
  · rcases hbalanced.result with hnone | heq
    · simp [hnone] at hres
    · exact heq.trans hc
  · rw [← hc]
    exact hbalanced.sum_of_free (h.control.free_of_result hres)

/-- The record that declares a log complete is written only after all parts have ended well, behind all other records, and nothing
follows it. -/
theorem marker (h : Books c l) {a b : Bytes} (hm : l.taken = a ++ endMarker ++ b) :
    l.refused = false ∧ c.copied = some (.ok ()) ∧ l.taken = l.records.flatMap Record.bytes ++ endMarker ∧ b = [] := by
  cases hr : l.refused with
  | true => exact absurd ⟨a, b, hm.symm⟩ (h.spoiled hr).unmarked.no_marker
  | false =>
    have hunmarked : ¬Unmarked l.taken := fun hu => hu.no_marker ⟨a, b, hm.symm⟩
    have hsum := (h.balanced hr).sum
    have hrest : (pending c).flatten = [] := by
      by_contra hne
      exact hunmarked (unmarked_of_part l.torn_records hne hsum)
    rw [hrest, List.append_nil] at hsum
    have hclosing : c.copied = some (.ok ()) := by
      by_contra hother
      have hnothing : ending c.copied = [] := by
        unfold ending
        split
        · contradiction
        · rfl
      rw [hnothing, List.append_nil] at hsum
      exact hunmarked (hsum ▸ l.torn_records).unmarked
    rw [hclosing] at hsum
    have hlast := hsum
    rw [hm] at hlast
    exact ⟨rfl, hclosing, hsum, eq_nil_of_marker l.torn_records hlast.symm⟩

end Books

end Copying

end JobPlane.Log
