import JobPlane.Proofs.Log.Books
import JobPlane.Proofs.Moves
import JobPlane.Proofs.Stream.Feed

/-!
# The body of a log

A log of events from the first byte of its source to the last byte of its body, whatever the source brings and in whatever pieces, in
whatever order the parts of the copy move, and however the sink takes what is written (`log_body`): the body is a sequence of records
that carries the job's output, and it declares the log complete exactly if the output has ended well. A sink fails by refusing bytes; it
flushes and closes at once, as every writing end here does.
-/

namespace JobPlane

/-- A sink with what it has taken, and whether it has refused bytes. -/
structure Watched (τ : Type) where
  sink : τ
  taken : Bytes := []
  refused : Bool := false

namespace Watched

variable {τ : Type} [Writable τ]

/-- Writes to the sink, and notes what that comes to. -/
def write (bs : Bytes) (w : Watched τ) : Writing × Watched τ :=
  match Writable.write bs w.sink with
  | (.took n, sink) => (.took n, { w with sink, taken := w.taken ++ bs.take n })
  | (.failed e, sink) => (.failed e, { w with sink, refused := true })
  | (.waiting, sink) => (.waiting, { w with sink })

instance : Writable (Watched τ) := ⟨write, fun w => { w with sink := Writable.finish w.sink }⟩

/-- Watching a sink is no matter for what is written to it. -/
theorem write_sink (bs : Bytes) (w : Watched τ) :
    ((Writable.write bs w).1, (Writable.write bs w).2.sink) = Writable.write bs w.sink := by
  have hwrite : Writable.write bs w = w.write bs := rfl
  rw [hwrite, write]
  split <;> rename_i heq <;> rw [heq]

/-- A copy to a watched sink makes the moves of one to the sink. -/
theorem step_sink {σ : Type} [Readable σ] (c : Log.Copying) (src : σ) (w : Watched τ) (m : Log.Copying.Move) :
    (c.step src w m).map (fun (c, src, w) => (c, src, w.sink)) = c.step src w.sink m := by
  cases m with
  | pump =>
    simp only [Log.Copying.step]
    split
    · rfl
    · simp [Option.map_map, Function.comp_def]
  | read k =>
    simp only [Log.Copying.step]
    split <;> simp [Option.map_map, Function.comp_def]
  | acquire k =>
    simp only [Log.Copying.step]
    split <;> simp [Option.map_map, Function.comp_def]
  | write =>
    simp only [Log.Copying.step, Log.Mux.advance]
    split
    · rfl
    · rename_i who call hm
      cases call.closes <;> rfl
    · rfl
    · rename_i who call p ps hne hm
      rw [← write_sink]
      cases hw : Writable.write p w with
      | mk r w' => cases r <;> rfl
  | close =>
    simp only [Log.Copying.step]
    split <;> simp [Option.map_map, Function.comp_def]

/-- A write that takes bytes is noted. -/
theorem write_took {bs : Bytes} {w w' : Watched τ} {n : Nat} (h : Writable.write bs w = (.took n, w')) :
    w'.taken = w.taken ++ bs.take n ∧ w'.refused = w.refused := by
  have hwrite : w.write bs = (.took n, w') := h
  unfold write at hwrite
  split at hwrite <;> cases hwrite
  exact ⟨rfl, rfl⟩

/-- A write that is refused is noted. -/
theorem write_failed {bs : Bytes} {w w' : Watched τ} {e : StreamError} (h : Writable.write bs w = (.failed e, w')) :
    w'.taken = w.taken ∧ w'.refused = true := by
  have hwrite : w.write bs = (.failed e, w') := h
  unfold write at hwrite
  split at hwrite <;> cases hwrite
  exact ⟨rfl, rfl⟩

end Watched

namespace Log

open Copying

/-! ## Output and its end -/

/-- What a job has written to a stream: what comes from a terminal is all standard output, and other output is in frames, of which the
complete ones count. -/
def written (tty : Bool) (output : Bytes) (k : OutputKind) : Bytes :=
  if tty then (if k = .stdout then output else []) else Frame.payloads k (Frame.parse output).1

/-- Output has ended well if it ended without a failure and, where it is in frames, between two of them. -/
def endedWell (tty : Bool) (input : Bytes × Except StreamError Unit) : Bool :=
  input.2.isOk && (tty || (Frame.parse input.1).2.isOk)

/-- Once all parts of a copy are over its records carry all that the job has written, and the copy has ended well if the output has. -/
theorem Copying.Concluded.written {c : Copying} {l : Ledger} {r : Except StreamError Unit} {tty : Bool}
    {all later : Bytes × Except StreamError Unit} (h : c.Concluded l r) (hs : c.source = .of .events tty)
    (hreads : Feed.Reads l.intake all later) :
    (∀ k, carried k l.begun = written tty all.1 k) ∧ (endedWell tty all = true ↔ r = .ok ()) := by
  unfold Concluded at h
  unfold Feed.Reads at hreads
  cases tty with
  | true =>
    rw [hs] at h
    obtain ⟨hstop, hcarried⟩ := h
    rw [hstop] at hreads
    subst hreads
    refine ⟨fun k => by rw [hcarried]; simp [Log.written], ?_⟩
    cases r <;> simp [endedWell, Except.isOk, Except.toBool]
  | false =>
    rw [hs] at h
    obtain ⟨frames, hpaces, hcarried⟩ := h
    rcases hpaces with ⟨hstop, hparse⟩ | ⟨e, fr, hstop, rfl, hparse⟩ | ⟨hstop, e, rfl, hparse⟩
    · rw [hstop] at hreads
      subst hreads
      refine ⟨fun k => by simp [Log.written, hcarried, hparse], ?_⟩
      cases r <;> simp [endedWell, hparse, Except.isOk, Except.toBool]
    · rw [hstop] at hreads
      subst hreads
      refine ⟨fun k => by simp [Log.written, hcarried, hparse], ?_⟩
      simp [endedWell, Except.isOk, Except.toBool]
    · rw [hstop] at hreads
      subst hreads
      refine ⟨fun k => by simp [Log.written, hcarried, hparse], ?_⟩
      simp [endedWell, hparse, Except.isOk, Except.toBool]

/-! ## A log on its way -/

/-- A copy of a log of events with the input that it reads and the sink that it writes to. -/
structure Delivery (τ : Type) where
  copying : Copying
  source : Feed
  sink : Watched τ

namespace Delivery

variable {τ : Type}

/-- A copy that has not begun, of input that is laid down to its end. -/
def start (tty : Bool) (arrivals : List Arrival) (sink : τ) : Delivery τ :=
  { copying := .start .events tty, source := ⟨arrivals, true⟩, sink := { sink } }

/-- One move of the copy. -/
def step [Writable τ] (d : Delivery τ) (m : Move) : Option (Delivery τ) :=
  (d.copying.step d.source d.sink m).map fun (copying, source, sink) => { copying, source, sink }

/-- What holds of a log on its way: the books are kept, of what was read and of what the sink took. -/
structure Kept (tty : Bool) (arrivals : List Arrival) (d : Delivery τ) (l : Ledger) : Prop where
  books : Books d.copying l
  source : d.copying.source = .of .events tty
  taken : d.sink.taken = l.taken
  refused : d.sink.refused = l.refused
  reads : ∃ later, d.source = ⟨later, true⟩ ∧ (l.refused = false → Feed.Reads l.intake (Feed.input arrivals) (Feed.input later))

namespace Kept

variable {tty : Bool} {arrivals : List Arrival} {d d' : Delivery τ} {l : Ledger} {m : Move}

/-- The books of a copy that has not begun. -/
theorem start (tty : Bool) (arrivals : List Arrival) (sink : τ) : Kept tty arrivals (.start tty arrivals sink) {} where
  books := .start tty
  source := rfl
  taken := rfl
  refused := rfl
  reads := ⟨arrivals, rfl, fun _ => rfl⟩

/-- What a move does to the sink is in the books. -/
theorem put [Writable τ] {w w' : Watched τ} {e : Event} (ht : w.taken = l.taken) (hr : w.refused = l.refused) (h : Put w e w') :
    w'.taken = (l.note e).taken ∧ w'.refused = (l.note e).refused := by
  cases e with
  | gave bs =>
    obtain ⟨p, n, -, hwrite, rfl⟩ := h
    obtain ⟨htook, hsame⟩ := Watched.write_took hwrite
    exact ⟨by rw [htook, ht]; rfl, hsame.trans hr⟩
  | refused =>
    obtain ⟨p, e, hwrite⟩ := h
    obtain ⟨hsame, hrefused⟩ := Watched.write_failed hwrite
    exact ⟨hsame.trans ht, hrefused⟩
  | _ => rcases h with rfl | rfl <;> exact ⟨ht, hr⟩

/-- What a move does to the input is in the books. -/
theorem drew {f f' : Feed} {e : Event} {c : Copying} (h : Kept tty arrivals d l) (hf : f = d.source) (ht : d.copying.Turn e c)
    (hdrew : Drew f e f') :
    ∃ later, f' = ⟨later, true⟩ ∧
      ((l.note e).refused = false → Feed.Reads (l.note e).intake (Feed.input arrivals) (Feed.input later)) := by
  obtain ⟨later, hsource, hreads⟩ := h.reads
  cases e with
  | read r =>
    obtain ⟨n, hread⟩ := hdrew
    rw [hf, hsource] at hread
    obtain ⟨later', hlater, htakes⟩ := Feed.read_input n later
    have hread : Feed.read n ⟨later, true⟩ = (r, f') := hread
    rw [hread] at hlater htakes
    exact ⟨later', hlater, fun hr => (hreads hr).read (h.books.stop_eq_none hr ht) htakes⟩
  | refused => exact ⟨later, (hdrew.trans hf).trans hsource, fun hr => by cases hr⟩
  | _ => exact ⟨later, (hdrew.trans hf).trans hsource, hreads⟩

/-- Every move is a turn of the copy, and keeps the books with what it adds to them. -/
theorem turn [Writable τ] (h : Kept tty arrivals d l) (hd : d.step m = some d') :
    ∃ e, d.copying.Turn e d'.copying ∧ Kept tty arrivals d' (l.note e) := by
  obtain ⟨⟨copying, source, sink⟩, hstep, heq⟩ := Option.map_eq_some_iff.mp hd
  cases heq
  obtain ⟨e, hturn, hdrew, hput⟩ := turn_of_step hstep
  obtain ⟨htaken, hrefused⟩ := put h.taken h.refused hput
  exact ⟨e, hturn, h.books.turn hturn, hturn.source_eq.trans h.source, htaken, hrefused, h.drew rfl hturn hdrew⟩

/-- Every move keeps the books. -/
theorem step [Writable τ] (h : Kept tty arrivals d l) (hd : d.step m = some d') : ∃ l', Kept tty arrivals d' l' := by
  obtain ⟨e, -, hkept⟩ := h.turn hd
  exact ⟨l.note e, hkept⟩

/-- Every schedule keeps the books. -/
theorem run [Writable τ] {sink : τ} {ms : List Move} (h : follow Delivery.step (.start tty arrivals sink) ms = some d) :
    ∃ l, Kept tty arrivals d l :=
  follow_keeps (P := fun d => ∃ l, Kept tty arrivals d l) h (fun _ _ _ _ hstep ⟨_, hkept⟩ => hkept.step hstep)
    ⟨{}, .start tty arrivals sink⟩

/-- Once all parts of the copy are over its records carry all that the job has written, and the copy has ended well if the output has. -/
theorem concluded (h : Kept tty arrivals d l) (hr : l.refused = false) {r : Except StreamError Unit}
    (hc : d.copying.copied = some r) :
    (∀ k, carried k l.begun = written tty (Feed.input arrivals).1 k) ∧ (endedWell tty (Feed.input arrivals) = true ↔ r = .ok ()) := by
  obtain ⟨later, -, hreads⟩ := h.reads
  exact (h.books.concluded hr hc).written h.source (hreads hr)

/-- Once the copy is over its records carry all that the job has written, and they are what the sink has taken. -/
theorem records_of_result (h : Kept tty arrivals d l) (hr : d.sink.refused = false) (hover : d.copying.result.isSome) :
    (∀ p ∈ l.begun, p.2 ≠ []) ∧ (∀ k, carried k l.begun = written tty (Feed.input arrivals).1 k) ∧
      ∀ records : List Record, records.flatMap Record.bytes = d.sink.taken ↔
        records = l.records ++ if endedWell tty (Feed.input arrivals) then [.complete] else [] := by
  rw [h.refused] at hr
  obtain ⟨r, hcopied, -, htaken⟩ := h.books.taken_of_result hr hover
  obtain ⟨hwritten, hended⟩ := h.concluded hr hcopied
  refine ⟨(h.books.balanced hr).chunks, hwritten, fun records => ?_⟩
  have hending : ending (some r) = (if endedWell tty (Feed.input arrivals) then [Record.complete] else []).flatMap Record.bytes := by
    cases r with
    | ok u => simp [hended.mpr rfl, ending, Record.bytes]
    | error e =>
      have hcut : endedWell tty (Feed.input arrivals) = false := by simpa using mt hended.mp (by simp)
      simp [hcut, ending]
  rw [h.taken, htaken, hending, ← List.flatMap_append]
  exact ⟨records_unique, fun heq => by rw [heq]⟩

end Kept

/-- Input that is laid down is there when it is asked for. -/
theorem source_ne_waiting {tty : Bool} {arrivals : List Arrival} {d : Delivery τ} {l : Ledger} (h : Kept tty arrivals d l) (n : Nat) :
    (Readable.read n d.source).1 ≠ .waiting := by
  obtain ⟨later, hsource, -⟩ := h.reads
  obtain ⟨later', -, htakes⟩ := Feed.read_input n later
  intro hwaiting
  rw [hsource] at hwaiting
  have hwaiting : (Feed.read n ⟨later, true⟩).1 = .waiting := hwaiting
  rw [hwaiting] at htakes
  exact htakes

end Delivery

/-- The body of a log of events, whatever its source brings, in whatever order the parts of the copy move, and however the sink takes
what is written:

1. once the copy is over, and if the sink has refused nothing, the body is made of one sequence of records and no other: pieces that are
   not empty and carry, stream by stream, all that the job has written, and then, if its output has ended well, the record that declares
   the log complete;
2. wherever the bytes of that record are in a body, over or not, the sink has refused nothing, the output has ended well, and nothing
   follows;
3. a copy whose parts cannot move any more is over, unless the sink takes nothing now. -/
theorem log_body {τ : Type} [Writable τ] {tty : Bool} {arrivals : List Arrival} {sink : τ} {moves : List Move} {d : Delivery τ}
    (h : follow Delivery.step (.start tty arrivals sink) moves = some d) :
    (d.copying.result.isSome → d.sink.refused = false →
      ∃ chunks : List (OutputKind × Bytes),
        (∀ p ∈ chunks, p.2 ≠ []) ∧ (∀ k, carried k chunks = written tty (Feed.input arrivals).1 k) ∧
          ∀ records : List Record, records.flatMap Record.bytes = d.sink.taken ↔
            records = chunks.map (fun p => .piece p.1.name (Utf8.lossy p.2)) ++
              if endedWell tty (Feed.input arrivals) then [.complete] else []) ∧
      (∀ a b, d.sink.taken = a ++ endMarker ++ b →
        d.sink.refused = false ∧ endedWell tty (Feed.input arrivals) = true ∧ b = []) ∧
      (AtRest Delivery.step turns.flatten d → (∀ bs, (Writable.write bs d.sink).1 ≠ .waiting) → d.copying.result.isSome) := by
  obtain ⟨l, hkept⟩ := Delivery.Kept.run h
  refine ⟨fun hover hr => ?_, fun a b hmarker => ?_, fun hrest hsink => ?_⟩
  · -- all that the job has written, and the end
    obtain ⟨hchunks, hwritten, hrecords⟩ := hkept.records_of_result hr hover
    exact ⟨l.begun, hchunks, hwritten, hrecords⟩
  · -- the record that declares the log complete
    rw [hkept.taken] at hmarker
    obtain ⟨hr, hcopied, -, hlast⟩ := hkept.books.marker hmarker
    exact ⟨hkept.refused.trans hr, (hkept.concluded hr hcopied).2.mpr rfl, hlast⟩
  · -- no part is stuck
    by_contra hover
    obtain ⟨m, hm, hstep⟩ := exists_step hkept.books.control.toManned hkept.books.lanes (by simpa using hover)
      (Delivery.source_ne_waiting hkept) hsink
    have hnone := hrest m hm
    simp only [Delivery.step, Option.map_eq_none_iff] at hnone
    simp [hnone] at hstep

/-- A frame for each of the streams, the second cut in two as it comes: a byte that is no text, and a line break. The parts take turns
until the copy is over. -/
theorem log_body_of_two_streams :
    ∃ d, follow Delivery.step (.start false [.bytes [1, 0, 0, 0, 0, 0, 0, 1, 0xFF, 2, 0], .bytes [0, 0, 0, 0, 0, 1, 0x0A]] ({} : Sink))
        (List.replicate 8 .pump ++ [.read .stdout, .acquire .stdout] ++ List.replicate 7 .write ++
          [.read .stdout, .read .stderr, .acquire .stderr] ++ List.replicate 7 .write ++ [.read .stderr, .close] ++
          List.replicate 3 .write) = some d ∧
      d.copying.result.isSome ∧ d.sink.refused = false ∧
      ∃ chunks : List (OutputKind × Bytes),
        carried .stdout chunks = [0xFF] ∧ carried .stderr chunks = [0x0A] ∧
          d.sink.taken = (chunks.map (fun p => Record.piece p.1.name (Utf8.lossy p.2)) ++ [Record.complete]).flatMap Record.bytes := by
  have hrun : ((follow Delivery.step
      (.start false [.bytes [1, 0, 0, 0, 0, 0, 0, 1, 0xFF, 2, 0], .bytes [0, 0, 0, 0, 0, 1, 0x0A]] ({} : Sink))
      (List.replicate 8 .pump ++ [.read .stdout, .acquire .stdout] ++ List.replicate 7 .write ++
        [.read .stdout, .read .stderr, .acquire .stderr] ++ List.replicate 7 .write ++ [.read .stderr, .close] ++
        List.replicate 3 .write)).map fun d => (d.copying.result.isSome, d.sink.refused)) = some (true, false) := by
    decide +kernel
  obtain ⟨d, hd, hends⟩ := Option.map_eq_some_iff.mp hrun
  obtain ⟨hover, hr⟩ := Prod.mk.inj hends
  obtain ⟨chunks, -, hwritten, hrecords⟩ := (log_body hd).1 hover hr
  refine ⟨d, hd, hover, hr, chunks, ?_, ?_, ?_⟩
  · rw [hwritten]
    decide +kernel
  · rw [hwritten]
    decide +kernel
  · refine ((hrecords _).mpr ?_).symm
    rw [if_pos (by decide +kernel)]

end Log

end JobPlane
