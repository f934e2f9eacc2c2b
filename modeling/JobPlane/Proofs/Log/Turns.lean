import JobPlane.Log.Copy
import JobPlane.Proofs.Frame.Split

/-!
# What a copy's move comes to

`Copying.Turn` tells the moves of a log's copy apart, each with what it does to the source and the sink and with the state it leads to.
Every move is one of them (`Copying.turn_of_step`), so what a turn keeps every move keeps, whatever the source and the sink are.
-/

namespace JobPlane.Log

namespace Copying

/-- What a move does outside the copy's own state. -/
inductive Event
  /-- The source was read. -/
  | read (r : Reading)
  /-- A forwarder took the sink for a chunk. -/
  | began (k : OutputKind) (chunk : Bytes)
  /-- The sink took bytes. -/
  | gave (bs : Bytes)
  /-- The sink refused bytes. -/
  | refused
  /-- Nothing that is read or written moved. -/
  | quiet

/-! ## States after a change of one part -/

variable {c c' : Copying} {k k' : OutputKind} {e : Event}

@[simp] theorem source_setForwarder (c : Copying) (k : OutputKind) (f : Forwarder) : (c.setForwarder k f).source = c.source := by
  cases k <;> simp only [setForwarder] <;> split <;> rfl

@[simp] theorem mux_setForwarder (c : Copying) (k : OutputKind) (f : Forwarder) : (c.setForwarder k f).mux = c.mux := by
  cases k <;> simp only [setForwarder] <;> split <;> rfl

@[simp] theorem copied_setForwarder (c : Copying) (k : OutputKind) (f : Forwarder) : (c.setForwarder k f).copied = c.copied := by
  cases k <;> simp only [setForwarder] <;> split <;> rfl

@[simp] theorem result_setForwarder (c : Copying) (k : OutputKind) (f : Forwarder) : (c.setForwarder k f).result = c.result := by
  cases k <;> simp only [setForwarder] <;> split <;> rfl

@[simp] theorem phase_setForwarder (c : Copying) (k : OutputKind) (f : Forwarder) :
    (c.setForwarder k f).splitter.phase = c.splitter.phase := by
  cases k <;> simp only [setForwarder] <;> split <;> simp

/-- The forwarders are not changed with the rest. -/
@[simp] theorem forwarder_mk (c : Copying) (k : OutputKind) (source : Source) (s : Splitter) (m : Mux Party)
    (copied result : Option (Except StreamError Unit)) :
    forwarder ⟨source, s, c.stdout, c.stderr, m, copied, result⟩ k = c.forwarder k := by
  cases k <;> rfl

/-- A change of one forwarder is none of the other. -/
theorem forwarder_setForwarder (c : Copying) (k k' : OutputKind) (f : Forwarder) :
    (c.setForwarder k f).forwarder k' = if k' = k then f else c.forwarder k' := by
  cases k <;> cases k' <;> simp only [setForwarder] <;> split <;> rfl

/-- A forwarder that goes on leaves the pipes as they are. -/
theorem splitter_setForwarder_of_going (c : Copying) (k : OutputKind) {f : Forwarder} (h : f.result? = none) :
    (c.setForwarder k f).splitter = c.splitter := by
  cases k <;> simp [setForwarder, h]

/-- A forwarder that ends gives up its end of its pipe. -/
theorem splitter_setForwarder_ended (c : Copying) (k : OutputKind) (r : Except StreamError Unit) :
    (c.setForwarder k (.ended r)).splitter = c.splitter.mapPipe k Pipe.abandon := by
  cases k <;> rfl

/-- A forwarder that ends gives up its end of its pipe, and not of the other. -/
theorem lane_setForwarder_ended (c : Copying) (k k' : OutputKind) (r : Except StreamError Unit) :
    (c.setForwarder k (.ended r)).splitter.lane k' =
      if k' = k then { c.splitter.lane k with pipe := (c.splitter.lane k).pipe.abandon } else c.splitter.lane k' := by
  rw [splitter_setForwarder_ended, Splitter.lane_mapPipe]

/-! ## Moves -/

/-- The call that closes the sink, by how the copying ended. -/
def closing : Except StreamError Unit → MuxCall
  | .ok () => .finish
  | .error _ => .abort

/-- What a copy's move comes to. -/
inductive Turn (c : Copying) : Event → Copying → Prop
  /-- The pump reads, and something if it asks for anything. -/
  | pumpRead {r : Reading} {s : Splitter} (hs : c.source = .framed) (h : c.splitter.Turn (some r) s)
      (hr : ∀ bs, r = .data bs → (∀ fr, c.splitter.phase = .reading fr → 0 < fr.wants) → bs ≠ []) :
      Turn c (.read r) { c with splitter := s }
  /-- The pump writes, or finds a forwarder gone. -/
  | pumpWrite {s : Splitter} (hs : c.source = .framed) (h : c.splitter.Turn none s) : Turn c .quiet { c with splitter := s }
  /-- The forwarder of a source that is read whole reads. -/
  | readWhole {name : String} {r : Reading} {f : Forwarder} (hs : c.source = .whole name) (hf : c.forwarder .stdout = .reading)
      (hr : ∀ bs, r = .data bs → bs ≠ []) (h : Forwarder.take r = some f) : Turn c (.read r) (c.setForwarder .stdout f)
  /-- A forwarder reads from its pipe. -/
  | readPipe {k : OutputKind} {bs later : Bytes} (hs : c.source = .framed) (hf : c.forwarder k = .reading)
      (hb : (c.splitter.lane k).pipe.buffer = bs ++ later) (hne : bs ≠ []) :
      Turn c .quiet ({ c with splitter := c.splitter.mapPipe k fun p => { p with buffer := later } }.setForwarder k (.queued bs))
  /-- A forwarder finds the end of its pipe. -/
  | drained {k : OutputKind} (hs : c.source = .framed) (hf : c.forwarder k = .reading)
      (hclosed : (c.splitter.lane k).pipe.closed = true) (hb : (c.splitter.lane k).pipe.buffer = []) :
      Turn c .quiet (c.setForwarder k (.ended (.ok ())))
  /-- A forwarder takes the sink for what it has read. -/
  | acquire {k : OutputKind} {chunk : Bytes} (hf : c.forwarder k = .queued chunk) (hm : c.mux.holder = none) :
      Turn c (.began k chunk)
        ({ c with mux := { c.mux with holder := some (.forwarder k, .write (c.nameOf k) chunk,
            MuxCall.pieces c.mux.encoding (.write (c.nameOf k) chunk)) } }.setForwarder k .writing)
  /-- A piece is written in full. -/
  | pass {who : Party} {call : MuxCall} {ps : List Bytes} (hm : c.mux.holder = some (who, call, [] :: ps)) :
      Turn c .quiet { c with mux := { c.mux with holder := some (who, call, ps) } }
  /-- The sink takes a part of a piece. -/
  | give {who : Party} {call : MuxCall} {p : Bytes} {ps : List Bytes} {n : Nat}
      (hm : c.mux.holder = some (who, call, p :: ps)) :
      Turn c (.gave (p.take n)) { c with mux := { c.mux with holder := some (who, call, p.drop n :: ps) } }
  /-- The sink refuses a piece. -/
  | refuse {who : Party} {call : MuxCall} {p : Bytes} {ps : List Bytes} {e : StreamError}
      (hm : c.mux.holder = some (who, call, p :: ps)) (hne : p ≠ []) :
      Turn c .refused (note { c with mux := { c.mux with holder := none } } (who, call, .error e))
  /-- A call is over. -/
  | done {who : Party} {call : MuxCall} (hm : c.mux.holder = some (who, call, [])) :
      Turn c .quiet (note { c with mux := { c.mux with holder := none } } (who, call, .ok ()))
  /-- All parts are over, and the sink is taken for closing it. -/
  | close {r : Except StreamError Unit} (hc : c.copied = none) (ho : c.outcome = some r) (hm : c.mux.holder = none) :
      Turn c .quiet { c with
        mux := { c.mux with holder := some (.closer, closing r, (closing r).pieces c.mux.encoding) }
        copied := some r }

/-- No turn changes what is read from the source. -/
theorem Turn.source_eq (h : c.Turn e c') : c'.source = c.source := by
  cases h with
  | @refuse who call p ps e hm hne => cases who <;> simp [note]
  | @done who call hm => cases who <;> simp [note]
  | _ => simp

/-- No turn changes how the sink is written to. -/
theorem Turn.encoding_eq (h : c.Turn e c') : c'.mux.encoding = c.mux.encoding := by
  cases h with
  | @refuse who call p ps e hm hne => cases who <;> simp [note]
  | @done who call hm => cases who <;> simp [note]
  | _ => simp

/-- What a move's event is for the source it reads. -/
def Drew {σ : Type} [Readable σ] (src : σ) (e : Event) (src' : σ) : Prop :=
  match e with
  | .read r => ∃ n, Readable.read n src = (r, src')
  | _ => src' = src

/-- What a move's event is for the sink it writes to. -/
def Put {τ : Type} [Writable τ] (dst : τ) (e : Event) (dst' : τ) : Prop :=
  match e with
  | .gave bs => ∃ p n, p ≠ [] ∧ Writable.write p dst = (.took n, dst') ∧ bs = p.take n
  | .refused => ∃ p e, Writable.write p dst = (.failed e, dst')
  | _ => dst' = dst ∨ dst' = Writable.finish dst

variable {σ τ : Type} [Readable σ] [Writable τ] {src src' : σ} {dst dst' : τ} {m : Move}

/-- What a forwarder's read from its own source comes to. -/
theorem turn_of_read [LawfulReadable σ] (k : OutputKind) (h : c.step src dst (.read k) = some (c', src', dst')) :
    ∃ e, c.Turn e c' ∧ Drew src e src' ∧ Put dst e dst' := by
  simp only [step] at h
  split at h
  · rename_i name hs hf
    obtain ⟨f, ht, heq⟩ := Option.map_eq_some_iff.mp h
    cases heq
    refine ⟨_, .readWhole hs hf ?_ ht, ⟨Forwarder.chunk, rfl⟩, Or.inl rfl⟩
    intro bs hbs
    exact LawfulReadable.ne_nil (n := Forwarder.chunk) (by decide) (Prod.ext hbs rfl)
  · rename_i k _ _ _ hs hf
    cases hread : (c.splitter.lane k).pipe.read Forwarder.chunk with
    | mk got pipe =>
      rw [hread] at h
      obtain ⟨f, ht, heq⟩ := Option.map_eq_some_iff.mp h
      cases heq
      cases got with
      | data bs =>
        cases ht
        obtain ⟨hb, hpipe, -, -⟩ := Pipe.read_data hread
        have hsame : (c.splitter.mapPipe k fun _ => pipe) = c.splitter.mapPipe k fun p => { p with buffer := pipe.buffer } := by
          refine Splitter.mapPipe_congr ?_
          rw [hpipe]
        refine ⟨.quiet, ?_, rfl, Or.inl rfl⟩
        rw [hsame]
        exact .readPipe hs hf hb (LawfulReadable.ne_nil (σ := Pipe) (n := Forwarder.chunk) (by decide) hread)
      | eof =>
        cases ht
        obtain ⟨hclosed, hb, rfl⟩ := Pipe.read_eof hread
        refine ⟨.quiet, ?_, rfl, Or.inl rfl⟩
        rw [Splitter.mapPipe_same]
        exact .drained hs hf hclosed hb
      | failed e => exact absurd hread Pipe.read_ne_failed
      | waiting => cases ht
  · cases h

/-- Every move of a copy is a turn. -/
theorem turn_of_step [LawfulReadable σ] (h : c.step src dst m = some (c', src', dst')) :
    ∃ e, c.Turn e c' ∧ Drew src e src' ∧ Put dst e dst' := by
  cases m with
  | pump =>
    simp only [step] at h
    split at h
    · cases h
    · rename_i hs
      obtain ⟨⟨s, after⟩, hstep, heq⟩ := Option.map_eq_some_iff.mp h
      cases heq
      rcases Splitter.turn_of_step hstep with ⟨r, n, hturn, hread, hn⟩ | ⟨hturn, rfl⟩
      · refine ⟨.read r, .pumpRead hs hturn ?_, ⟨n, hread⟩, Or.inl rfl⟩
        rintro bs rfl hwants
        obtain ⟨fr, hp⟩ := hturn.phase_of_read
        exact LawfulReadable.ne_nil (hn fr hp ▸ hwants fr hp) hread
      · exact ⟨.quiet, .pumpWrite hs hturn, rfl, Or.inl rfl⟩
  | read k => exact turn_of_read k h
  | acquire k =>
    simp only [step] at h
    split at h
    · rename_i chunk hf
      obtain ⟨mux, hm, heq⟩ := Option.map_eq_some_iff.mp h
      cases heq
      obtain ⟨hfree, rfl⟩ := Mux.acquire_eq_some.mp hm
      exact ⟨_, .acquire hf hfree, rfl, Or.inl rfl⟩
    · cases h
  | write =>
    simp only [step] at h
    obtain ⟨p, hp, heq⟩ := Option.map_eq_some_iff.mp h
    unfold Mux.advance at hp
    split at hp
    · cases hp
    · rename_i who call hm
      cases hp
      cases heq
      refine ⟨.quiet, .done hm, rfl, ?_⟩
      cases call.closes
      · exact Or.inl rfl
      · exact Or.inr rfl
    · rename_i who call ps hm
      cases hp
      cases heq
      exact ⟨.quiet, .pass hm, rfl, Or.inl rfl⟩
    · rename_i who call p ps hnil hm
      have hne : p ≠ [] := by simpa using hnil
      split at hp
      · cases hp
      · rename_i e dst'' hw
        cases hp
        cases heq
        exact ⟨.refused, .refuse hm hne, rfl, p, e, hw⟩
      · rename_i n dst'' hw
        cases hp
        cases heq
        exact ⟨.gave (p.take n), .give hm, rfl, p, n, hne, hw, rfl⟩
  | close =>
    simp only [step] at h
    split at h
    · rename_i r hc ho
      obtain ⟨mux, hm, heq⟩ := Option.map_eq_some_iff.mp h
      cases heq
      obtain ⟨hfree, rfl⟩ := Mux.acquire_eq_some.mp hm
      cases r <;> exact ⟨.quiet, .close hc ho hfree, rfl, Or.inl rfl⟩
    · cases h

end Copying

end JobPlane.Log
