import JobPlane.Proofs.Log.Turns

/-!
# Who does what in a copy

`Manned` says how the parts of a log's copy fit together: the sink is taken by the forwarder that writes, or by whoever closes it once
all parts are over. `Control` is the same for a log of events, with the names that its streams have there. `Lanes` says when the pipes
between the pump and the forwarders are closed. Every turn keeps all of these, and from them follows that a copy is never stuck
(`exists_step`): as long as it is not over, a move is possible, unless its source has nothing yet or its sink takes nothing now.
-/

namespace JobPlane.Log

/-- Who has taken a sink. -/
def Mux.taker {κ : Type} (m : Mux κ) : Option κ := m.holder.map (·.1)

namespace Copying

variable {c c' : Copying} {k : OutputKind} {f : Forwarder} {e : Event}

/-! ## The sink and the parts -/

/-- How the parts of a copy fit together. -/
structure Manned (c : Copying) : Prop where
  alone : ∀ name, c.source = .whole name → c.forwarder .stderr = .reading
  writing : ∀ k, c.mux.taker = some (.forwarder k) ↔ c.forwarder k = .writing
  closing : c.mux.taker = some .closer ↔ c.copied.isSome ∧ c.result = none
  copied : ∀ r, c.copied = some r → c.outcome = some r
  closed : c.result.isSome → c.copied.isSome

/-- How the parts of a copy of a log of events fit together. -/
structure Control (c : Copying) : Prop extends Manned c where
  encoding : c.mux.encoding = .events
  named : c.source = .framed ∨ c.source = .whole OutputKind.stdout.name

/-- A forwarder that has a result is over. -/
theorem result?_eq_some {r : Except StreamError Unit} (h : f.result? = some r) : f = .ended r := by
  unfold Forwarder.result? at h
  split at h
  · cases h
    rfl
  · cases h

/-- When a copy from a source that is read whole has an outcome, its forwarder is over. -/
theorem outcome_whole {name : String} {r : Except StreamError Unit} (hs : c.source = .whole name) (h : c.outcome = some r) :
    c.forwarder .stdout = .ended r := by
  unfold outcome at h
  rw [hs] at h
  exact result?_eq_some h

/-- When a copy from a source of frames has an outcome, the pump and both forwarders are over. -/
theorem outcome_framed {r : Except StreamError Unit} (hs : c.source = .framed) (h : c.outcome = some r) :
    ∃ p o e, c.splitter.phase = .ended p ∧ c.forwarder .stdout = .ended o ∧ c.forwarder .stderr = .ended e ∧
      r = both (both p o) e := by
  unfold outcome at h
  rw [hs] at h
  simp only at h
  split at h
  · rename_i p o e hp ho he
    cases h
    exact ⟨p, o, e, hp, result?_eq_some ho, result?_eq_some he, rfl⟩
  · cases h

namespace Manned

/-- A copy that has not begun. -/
theorem start (encoding : Encoding) (tty : Bool) : Manned (.start encoding tty) where
  alone name hs := rfl
  writing k := by cases k <;> simp [Copying.start, Mux.taker, forwarder]
  closing := by simp [Copying.start, Mux.taker]
  copied := by simp [Copying.start]
  closed := by simp [Copying.start]

/-- Nobody closes the sink while a forwarder that is in use is not over. -/
theorem not_copied (h : Manned c) (hf : (c.forwarder k).result? = none)
    (hk : c.source = .framed ∨ k = .stdout ∨ c.forwarder k ≠ .reading) : c.copied = none := by
  cases hc : c.copied with
  | none => rfl
  | some r =>
    exfalso
    have ho := h.copied r hc
    cases hs : c.source with
    | framed =>
      obtain ⟨p, o, e, -, hstdout, hstderr, -⟩ := outcome_framed hs ho
      cases k
      · simp [hstdout, Forwarder.result?] at hf
      · simp [hstderr, Forwarder.result?] at hf
    | whole name =>
      have hstdout := outcome_whole hs ho
      cases k
      · simp [hstdout, Forwarder.result?] at hf
      · simp [hs, h.alone name hs] at hk

/-- Nobody closes the sink while the pump is not over. -/
theorem not_copied_of_pump (h : Manned c) (hs : c.source = .framed) (hp : ∀ p, c.splitter.phase ≠ .ended p) :
    c.copied = none := by
  cases hc : c.copied with
  | none => rfl
  | some r =>
    obtain ⟨p, o, e, hended, -⟩ := outcome_framed hs (h.copied r hc)
    exact absurd hended (hp p)

/-- The pump moves on. -/
theorem with_splitter (h : Manned c) (hc : c.copied = none) (s : Splitter) : Manned { c with splitter := s } where
  alone := h.alone
  writing := h.writing
  closing := h.closing
  copied := by simp [hc]
  closed := h.closed

/-- A forwarder that has not got the sink moves on without it. -/
theorem set (h : Manned c) (hc : c.copied = none) (hk : c.source = .framed ∨ k = .stdout) (hf : c.forwarder k ≠ .writing)
    (hf' : f ≠ .writing) : Manned (c.setForwarder k f) where
  alone name hs := by
    rw [source_setForwarder] at hs
    rw [forwarder_setForwarder, if_neg (by rintro rfl; simp [hs] at hk)]
    exact h.alone name hs
  writing k' := by
    rw [mux_setForwarder, forwarder_setForwarder, h.writing]
    split
    · rename_i heq
      simp [heq, hf, hf']
    · rfl
  closing := by simpa using h.closing
  copied := by simp [hc]
  closed := by simpa using h.closed

/-- A forwarder takes the sink, or gives it up. -/
theorem exchange (h : Manned c) (hc : c.copied = none) (hf : c.forwarder k ≠ .reading)
    (ht : c.mux.taker = none ∨ c.mux.taker = some (.forwarder k)) {m : Mux Party}
    (hm : m.taker = some (.forwarder k) ∧ f = .writing ∨ m.taker = none ∧ f ≠ .writing) :
    Manned ({ c with mux := m }.setForwarder k f) := by
  refine ⟨fun name hs => ?_, ?_, ?_, by simp [hc], ?_⟩
  · rw [source_setForwarder] at hs
    have hstderr := h.alone name hs
    rw [forwarder_setForwarder, if_neg (by rintro rfl; exact hf hstderr)]
    exact hstderr
  · intro k'
    rw [mux_setForwarder, forwarder_setForwarder]
    by_cases heq : k' = k
    · rcases hm with ⟨hm, rfl⟩ | ⟨hm, hf'⟩
      · simp [hm, heq]
      · simp [hm, heq, hf']
    · have hne : k ≠ k' := fun h => heq h.symm
      have hother : c.forwarder k' ≠ .writing := by
        rcases ht with ht | ht <;> simp [← h.writing, ht, hne]
      rcases hm with ⟨hm, -⟩ | ⟨hm, -⟩ <;> simp [hm, heq, hne, hother]
  · rcases hm with ⟨hm, -⟩ | ⟨hm, -⟩ <;> simp [hm, hc]
  · simpa [hc] using h.closed

/-- Whoever has the sink writes on. -/
theorem keep (h : Manned c) {m : Mux Party} (hm : m.taker = c.mux.taker) : Manned { c with mux := m } where
  alone := h.alone
  writing k := by
    rw [hm]
    exact h.writing k
  closing := by
    rw [hm]
    exact h.closing
  copied := h.copied
  closed := h.closed

/-- A forwarder that has the sink writes. -/
theorem writing_of_holder (h : Manned c) {call : MuxCall} {ps : List Bytes} (hm : c.mux.holder = some (.forwarder k, call, ps)) :
    c.forwarder k = .writing :=
  (h.writing k).mp (by simp [Mux.taker, hm])

/-- Whoever has the sink gives it up. -/
theorem release (h : Manned c) {who : Party} {call call' : MuxCall} {ps : List Bytes} {r : Except StreamError Unit}
    (hm : c.mux.holder = some (who, call, ps)) :
    Manned (note { c with mux := { c.mux with holder := none } } (who, call', r)) := by
  have htaker : c.mux.taker = some who := by simp [Mux.taker, hm]
  cases who with
  | forwarder k =>
    have hf := h.writing_of_holder hm
    have hc : c.copied = none := h.not_copied (k := k) (by simp [hf, Forwarder.result?]) (by simp [hf])
    have hgone (f : Forwarder) (hf' : f ≠ .writing) : Manned ({ c with mux := { c.mux with holder := none } }.setForwarder k f) :=
      h.exchange hc (by simp [hf]) (Or.inr htaker) (Or.inr ⟨rfl, hf'⟩)
    cases r with
    | ok u => exact hgone .reading (by simp)
    | error e => exact hgone (.ended (.error e)) (by simp)
  | closer =>
    obtain ⟨hc, hr⟩ := h.closing.mp htaker
    have hother (k : OutputKind) : c.forwarder k ≠ .writing := by simp [← h.writing, htaker]
    exact ⟨h.alone, fun k => by simpa [note, Mux.taker] using hother k, by simp [note, Mux.taker], h.copied, fun _ => hc⟩

/-- The sink is taken for closing it. -/
theorem close (h : Manned c) {r : Except StreamError Unit} {call : MuxCall} {ps : List Bytes} (hc : c.copied = none)
    (ho : c.outcome = some r) (hm : c.mux.holder = none) :
    Manned { c with mux := { c.mux with holder := some (.closer, call, ps) }, copied := some r } := by
  have htaker : c.mux.taker = none := by simp [Mux.taker, hm]
  have hr : c.result = none := by
    cases hr : c.result with
    | none => rfl
    | some r => simpa [hc] using h.closed (by simp [hr])
  have hother (k : OutputKind) : c.forwarder k ≠ .writing := by simp [← h.writing, htaker]
  refine ⟨h.alone, fun k => by simpa [Mux.taker] using hother k, by simp [Mux.taker, hr], ?_, fun _ => rfl⟩
  intro r' hr'
  cases hr'
  exact ho

/-- Every turn keeps the parts fitting together. -/
theorem turn (h : Manned c) (ht : c.Turn e c') : Manned c' := by
  cases ht with
  | pumpRead hs ht => exact h.with_splitter (h.not_copied_of_pump hs ht.phase_ne_ended) _
  | pumpWrite hs ht => exact h.with_splitter (h.not_copied_of_pump hs ht.phase_ne_ended) _
  | readWhole hs hf hr hf' =>
    have hc := h.not_copied (k := .stdout) (by simp [hf, Forwarder.result?]) (Or.inr (Or.inl rfl))
    exact h.set hc (Or.inr rfl) (by simp [hf]) (by rintro rfl; unfold Forwarder.take at hf'; split at hf' <;> cases hf')
  | @readPipe k _ _ hs hf hb hne =>
    have hc := h.not_copied (k := k) (by simp [hf, Forwarder.result?]) (Or.inl hs)
    exact (h.with_splitter hc _).set hc (Or.inl hs) (by simp [hf]) (by simp)
  | @drained k hs hf hclosed hb =>
    have hc := h.not_copied (k := k) (by simp [hf, Forwarder.result?]) (Or.inl hs)
    exact h.set hc (Or.inl hs) (by simp [hf]) (by simp)
  | @acquire k _ hf hm =>
    have hc := h.not_copied (k := k) (by simp [hf, Forwarder.result?]) (by simp [hf])
    exact h.exchange hc (by simp [hf]) (Or.inl (by simp [Mux.taker, hm])) (Or.inl ⟨rfl, rfl⟩)
  | pass hm => exact h.keep (by simp [Mux.taker, hm])
  | give hm => exact h.keep (by simp [Mux.taker, hm])
  | refuse hm hne => exact h.release hm
  | done hm => exact h.release hm
  | close hc ho hm => exact h.close hc ho hm

/-- Nobody has the sink of a copy that is over. -/
theorem free_of_result (h : Manned c) (hr : c.result.isSome) : c.mux.holder = none := by
  cases hm : c.mux.holder with
  | none => rfl
  | some holder =>
    exfalso
    obtain ⟨who, call, ps⟩ := holder
    cases who with
    | forwarder k =>
      have hf := h.writing_of_holder hm
      have hnone := h.not_copied (k := k) (by simp [hf, Forwarder.result?]) (by simp [hf])
      simpa [hnone] using h.closed hr
    | closer =>
      obtain ⟨-, hnone⟩ := h.closing.mp (by simp [Mux.taker, hm])
      simp [hnone] at hr

end Manned

namespace Control

/-- A copy that has not begun. -/
theorem start (tty : Bool) : Control (.start .events tty) where
  toManned := .start .events tty
  encoding := rfl
  named := by
    cases tty
    · exact Or.inl rfl
    · exact Or.inr rfl

/-- What is read from the source, and that nobody forwards standard error where all is read under one name. -/
theorem source (h : Control c) :
    c.source = .framed ∨ c.source = .whole OutputKind.stdout.name ∧ c.forwarder .stderr = .reading :=
  h.named.imp_right fun hs => ⟨hs, h.alone _ hs⟩

/-- A forwarder that has read something has it under the name of its stream. -/
theorem nameOf (h : Control c) (hf : c.forwarder k ≠ .reading) : c.nameOf k = k.name := by
  unfold Copying.nameOf
  rcases h.source with hs | ⟨hs, hstderr⟩
  · rw [hs]
  · rw [hs]
    cases k
    · rfl
    · exact absurd hstderr hf

/-- Every turn keeps the parts fitting together. -/
theorem turn (h : Control c) (ht : c.Turn e c') : Control c' where
  toManned := h.toManned.turn ht
  encoding := ht.encoding_eq.trans h.encoding
  named := by
    rw [ht.source_eq]
    exact h.named

end Control

/-! ## The pipes -/

/-- When the pipes between the pump and the forwarders are closed. -/
structure Lanes (c : Copying) : Prop where
  capacity : ∀ k, 0 < (c.splitter.lane k).pipe.capacity
  abandoned : ∀ k r, c.forwarder k = .ended r → (c.splitter.lane k).pipe.closed = true
  finished : ∀ p, c.splitter.phase = .ended p → ∀ k, (c.splitter.lane k).pipe.closed = true

namespace Lanes

/-- A copy that has not begun. -/
theorem start (encoding : Encoding) (tty : Bool) : Lanes (.start encoding tty) where
  capacity k := by cases k <;> simp [Copying.start, Splitter.lane]
  abandoned k r h := by cases k <;> simp [Copying.start, forwarder] at h
  finished p h := by simp [Copying.start] at h

/-- The pump moves. -/
theorem with_splitter (h : Lanes c) {r : Option Reading} {s : Splitter} (ht : c.splitter.Turn r s) :
    Lanes { c with splitter := s } where
  capacity k := by
    rw [(ht.lane k).1]
    exact h.capacity k
  abandoned k r hf := (ht.lane k).2.1 (h.abandoned k r hf)
  finished p hp k := (ht.lane k).2.2 p hp

/-- A forwarder moves on. -/
theorem set (h : Lanes c) (f : Forwarder) : Lanes (c.setForwarder k f) := by
  cases hf : f.result? with
  | none =>
    refine ⟨fun k' => ?_, fun k' r hk' => ?_, fun p hp k' => ?_⟩
    · rw [splitter_setForwarder_of_going c k hf]
      exact h.capacity k'
    · rw [splitter_setForwarder_of_going c k hf]
      rw [forwarder_setForwarder] at hk'
      split at hk'
      · simp [hk', Forwarder.result?] at hf
      · exact h.abandoned k' r hk'
    · rw [splitter_setForwarder_of_going c k hf]
      exact h.finished p (by simpa using hp) k'
  | some r =>
    obtain rfl := result?_eq_some hf
    refine ⟨fun k' => ?_, fun k' r' hk' => ?_, fun p hp k' => ?_⟩
    · rw [lane_setForwarder_ended]
      split
      · exact h.capacity k
      · exact h.capacity k'
    · rw [lane_setForwarder_ended]
      rw [forwarder_setForwarder] at hk'
      split
      · rfl
      · rename_i hne
        rw [if_neg hne] at hk'
        exact h.abandoned k' r' hk'
    · rw [lane_setForwarder_ended]
      split
      · rfl
      · exact h.finished p (by simpa using hp) k'

/-- What is in a pipe changes. -/
theorem with_buffer (h : Lanes c) (b : Bytes) :
    Lanes { c with splitter := c.splitter.mapPipe k fun p => { p with buffer := b } } := by
  refine ⟨fun k' => ?_, fun k' r hk' => ?_, fun p hp k' => ?_⟩
  · simp only [Splitter.lane_mapPipe]
    split
    · exact h.capacity k
    · exact h.capacity k'
  · simp only [Splitter.lane_mapPipe]
    have hclosed := h.abandoned k' r (by simpa using hk')
    split
    · rename_i heq
      exact heq ▸ hclosed
    · exact hclosed
  · simp only [Splitter.lane_mapPipe]
    have hclosed := h.finished p (by simpa using hp)
    split
    · exact hclosed k
    · exact hclosed k'

/-- Pipes are not a matter of the sink. -/
theorem with_mux (h : Lanes c) (m : Mux Party) (a b : Option (Except StreamError Unit)) :
    Lanes { c with mux := m, copied := a, result := b } where
  capacity := h.capacity
  abandoned k r hk := h.abandoned k r (by simpa using hk)
  finished := h.finished

/-- The end of a call leaves the pipes in order. -/
theorem note (h : Lanes c) (e : Party × MuxCall × Except StreamError Unit) : Lanes (c.note e) := by
  obtain ⟨who, call, r⟩ := e
  cases who with
  | forwarder k =>
    cases r with
    | ok u => exact h.set .reading
    | error e => exact h.set (.ended (.error e))
  | closer => exact h.with_mux c.mux c.copied _

/-- Every turn leaves the pipes in order. -/
theorem turn (h : Lanes c) (ht : c.Turn e c') : Lanes c' := by
  cases ht with
  | pumpRead hs ht => exact h.with_splitter ht
  | pumpWrite hs ht => exact h.with_splitter ht
  | readWhole => exact h.set _
  | readPipe => exact (h.with_buffer _).set _
  | drained => exact h.set _
  | acquire => exact (h.with_mux _ _ _).set _
  | pass => exact h.with_mux _ _ _
  | give => exact h.with_mux _ _ _
  | refuse => exact (h.with_mux _ _ _).note _
  | done => exact (h.with_mux _ _ _).note _
  | close => exact h.with_mux _ _ _

end Lanes

/-! ## Going on -/

section

variable {σ τ : Type} [Readable σ] [Writable τ] {src : σ} {dst : τ}

/-- Whoever has the sink can write on, unless the sink takes nothing now. -/
theorem write_isSome (hm : c.mux.holder ≠ none) (hdst : ∀ p, (Writable.write p dst).1 ≠ .waiting) :
    (c.step src dst .write).isSome := by
  simp only [step, Option.isSome_map]
  unfold Mux.advance
  split
  · exact absurd (by assumption) hm
  · rfl
  · rfl
  · rename_i who call p ps hne hh
    split
    · rename_i dst' hw
      exact absurd (congrArg Prod.fst hw) (hdst p)
    · rfl
    · rfl

/-- A forwarder that has read can take a sink that is free. -/
theorem acquire_isSome {chunk : Bytes} (hf : c.forwarder k = .queued chunk) (hm : c.mux.holder = none) :
    (c.step src dst (.acquire k)).isSome := by
  simp [step, hf, Mux.acquire, hm]

/-- A forwarder can read from a pipe that is closed or has something inside. -/
theorem read_isSome (hs : c.source = .framed) (hf : c.forwarder k = .reading)
    (hp : (c.splitter.lane k).pipe.closed = true ∨ (c.splitter.lane k).pipe.buffer ≠ []) :
    (c.step src dst (.read k)).isSome := by
  have hread : ((c.splitter.lane k).pipe.read Forwarder.chunk).1 ≠ .waiting := by
    intro h
    obtain ⟨hopen, hempty⟩ := Pipe.read_waiting (Prod.ext h rfl)
    rcases hp with hp | hp
    · simp [hopen] at hp
    · exact hp hempty
  simp only [step, hf, hs, Option.isSome_map]
  unfold Forwarder.take
  split <;> simp_all

/-- The forwarder of a source that is read whole can read, unless the source has nothing yet. -/
theorem read_whole_isSome {name : String} (hs : c.source = .whole name) (hf : c.forwarder .stdout = .reading)
    (hsrc : ∀ n, (Readable.read n src).1 ≠ .waiting) : (c.step src dst (.read .stdout)).isSome := by
  have hread := hsrc Forwarder.chunk
  simp only [step, hf, hs, Option.isSome_map]
  unfold Forwarder.take
  split <;> simp_all

/-- The pump can read, unless the source has nothing yet. -/
theorem pump_read_isSome {r : FrameReader} (hs : c.source = .framed) (hp : c.splitter.phase = .reading r)
    (hsrc : ∀ n, (Readable.read n src).1 ≠ .waiting) : (c.step src dst .pump).isSome := by
  have hread := hsrc r.wants
  simp only [step, hs, Splitter.step, hp, Option.isSome_map]
  unfold Splitter.take
  split
  · simp_all
  · rfl
  · rfl
  · split <;> rfl

/-- The pump can write to a pipe that is closed or has room. -/
theorem pump_write_isSome {rest : Bytes} (hs : c.source = .framed) (hp : c.splitter.phase = .writing k rest)
    (hl : (c.splitter.lane k).pipe.closed = true ∨ (c.splitter.lane k).pipe.room ≠ 0) : (c.step src dst .pump).isSome := by
  simp only [step, hs, Splitter.step, hp, Option.isSome_map]
  split
  · rename_i p hw
    obtain ⟨hopen, hfull⟩ := Pipe.write_waiting hw
    simp [hopen, hfull] at hl
  · rfl
  · rfl

/-- A sink that is free can be taken for closing it once all parts are over. -/
theorem close_isSome {r : Except StreamError Unit} (hc : c.copied = none) (ho : c.outcome = some r) (hm : c.mux.holder = none) :
    (c.step src dst .close).isSome := by
  simp [step, hc, ho, Mux.acquire, hm]

/-- A copy of output that is read whole can move where its forwarder reads or is over. -/
theorem exists_step_whole {name : String} (hs : c.source = .whole name) (hc : c.copied = none) (hm : c.mux.holder = none)
    (hidle : c.forwarder .stdout = .reading ∨ ∃ r, c.forwarder .stdout = .ended r)
    (hsrc : ∀ n, (Readable.read n src).1 ≠ .waiting) : ∃ m ∈ turns.flatten, (c.step src dst m).isSome := by
  rcases hidle with hf | ⟨o, ho⟩
  · exact ⟨.read .stdout, by simp [turns], read_whole_isSome hs hf hsrc⟩
  · have hover : c.outcome = some o := by
      have hstdout : c.stdout = .ended o := ho
      simp [outcome, hs, hstdout, Forwarder.result?]
    exact ⟨.close, by simp [turns], close_isSome hc hover hm⟩

/-- A copy of output in frames can move where both forwarders read or are over: the pump can, or a forwarder whose pipe is full or
closed, or all parts are over. -/
theorem exists_step_framed (hl : Lanes c) (hs : c.source = .framed) (hc : c.copied = none) (hm : c.mux.holder = none)
    (hidle : ∀ k, c.forwarder k = .reading ∨ ∃ r, c.forwarder k = .ended r)
    (hsrc : ∀ n, (Readable.read n src).1 ≠ .waiting) : ∃ m ∈ turns.flatten, (c.step src dst m).isSome := by
  cases hp : c.splitter.phase with
  | reading r => exact ⟨.pump, by simp [turns], pump_read_isSome hs hp hsrc⟩
  | writing k rest =>
    by_cases hroom : (c.splitter.lane k).pipe.closed = true ∨ (c.splitter.lane k).pipe.room ≠ 0
    · exact ⟨.pump, by simp [turns], pump_write_isSome hs hp hroom⟩
    · simp only [not_or, Bool.not_eq_true, ne_eq, Decidable.not_not] at hroom
      obtain ⟨hopen, hfull⟩ := hroom
      rcases hidle k with hf | ⟨r, hf⟩
      · refine ⟨.read k, by cases k <;> simp [turns], read_isSome hs hf (Or.inr fun hempty => ?_)⟩
        have hcapacity := hl.capacity k
        simp only [Pipe.room, hempty, List.length_nil] at hfull
        omega
      · simp [hl.abandoned k r hf] at hopen
  | ended p =>
    have hclosed := hl.finished p hp
    rcases hidle .stdout with hf | ⟨o, ho⟩
    · exact ⟨.read .stdout, by simp [turns], read_isSome hs hf (Or.inl (hclosed _))⟩
    · rcases hidle .stderr with hf | ⟨e, he⟩
      · exact ⟨.read .stderr, by simp [turns], read_isSome hs hf (Or.inl (hclosed _))⟩
      · have hover : c.outcome = some (both (both p o) e) := by
          have hstdout : c.stdout = .ended o := ho
          have hstderr : c.stderr = .ended e := he
          simp [outcome, hs, hp, hstdout, hstderr, Forwarder.result?]
        exact ⟨.close, by simp [turns], close_isSome hc hover hm⟩

/-- A copy that is not over can move, unless its source has nothing yet or its sink takes nothing now. -/
theorem exists_step (h : Manned c) (hl : Lanes c) (hr : c.result = none) (hsrc : ∀ n, (Readable.read n src).1 ≠ .waiting)
    (hdst : ∀ p, (Writable.write p dst).1 ≠ .waiting) : ∃ m ∈ turns.flatten, (c.step src dst m).isSome := by
  by_cases hm : c.mux.holder = none
  · have hc : c.copied = none := by
      cases hc : c.copied with
      | none => rfl
      | some r => simpa [Mux.taker, hm] using h.closing.mpr ⟨by simp [hc], hr⟩
    by_cases hq : ∃ k chunk, c.forwarder k = .queued chunk
    · obtain ⟨k, chunk, hf⟩ := hq
      exact ⟨.acquire k, by cases k <;> simp [turns], acquire_isSome hf hm⟩
    · have hidle (k : OutputKind) : c.forwarder k = .reading ∨ ∃ r, c.forwarder k = .ended r := by
        have hwriting : c.forwarder k ≠ .writing := by simp [← h.writing, Mux.taker, hm]
        cases hf : c.forwarder k with
        | reading => exact Or.inl rfl
        | queued chunk => exact absurd ⟨k, chunk, hf⟩ hq
        | writing => exact absurd hf hwriting
        | ended r => exact Or.inr ⟨r, rfl⟩
      cases hs : c.source with
      | framed => exact exists_step_framed hl hs hc hm hidle hsrc
      | whole name => exact exists_step_whole hs hc hm (hidle .stdout) hsrc
  · exact ⟨.write, by simp [turns], write_isSome hm hdst⟩

end

end Copying

end JobPlane.Log
